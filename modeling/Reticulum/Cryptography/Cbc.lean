import Reticulum.Core.Bytes
import Reticulum.Core.Chaining
import Reticulum.Core.Memory

/-!
# CBC in place, and padding

`EncryptCBC` and `DecryptCBC` (`pkg/cryptography/cbc.go`) work on slices of bytes.  The first writes
the ciphertext over the plaintext, and takes the block before from where it has written it; the
second may be given the same slice twice.  Slices are places in a memory here, so that this is seen
(**`encryptCBC_eq`**, **`decryptCBC_eq`**).
-/

namespace Reticulum

variable {n : ℕ}

open Memory

/-! ## Blocks -/

structure CipherBlock where
  blockSize : ℕ
  encrypt : Bytes → Bytes
  decrypt : Bytes → Bytes

/-- Blocks are permuted, and `decrypt` is the inverse. -/
structure CipherBlock.Lawful (b : CipherBlock) : Prop where
  blockSize_pos : 0 < b.blockSize
  length_encrypt : ∀ x, x.length = b.blockSize → (b.encrypt x).length = b.blockSize
  length_decrypt : ∀ x, x.length = b.blockSize → (b.decrypt x).length = b.blockSize
  decrypt_encrypt : ∀ x, x.length = b.blockSize → b.decrypt (b.encrypt x) = x

def xorBytes (x y : Bytes) : Bytes := .zipWith (· ^^^ ·) x y

lemma length_xorBytes {x y : Bytes} (hx : x.length = n) (hy : y.length = n) :
    (xorBytes x y).length = n := by
  rw [xorBytes, List.length_zipWith, hx, hy, min_self]

lemma xorBytes_xorBytes {x y : Bytes} (h : x.length = y.length) :
    xorBytes (xorBytes x y) y = x := by
  induction x generalizing y with
  | nil => rfl
  | cons a x ih =>
    cases y with
    | nil => cases h
    | cons b y =>
      have hrest := ih (by simpa using h)
      simp only [xorBytes, List.zipWith_cons_cons] at hrest ⊢
      rw [hrest, UInt8.xor_assoc, UInt8.xor_self, UInt8.xor_zero]

/-! ## In place -/

structure Slice where
  start : ℕ
  length : ℕ
deriving DecidableEq

def errCBCArgs : String := "invalid CBC arguments"

/-- What the library panics with; a panic is an error here. -/
def panicOverlap : String := "invalid buffer overlap"

def inexactOverlap (i j n : ℕ) : Prop := i ≠ j ∧ i < j + n ∧ j < i + n

instance instDecidableInexactOverlap (i j n : ℕ) : Decidable (inexactOverlap i j n) :=
  inferInstanceAs (Decidable (_ ∧ _))

/-- The loop of `EncryptCBC`: `prev` is a place, and not a copy of what is there. -/
def encryptLoop (b : CipherBlock) (m : ℕ → UInt8) (prev i : ℕ) : ℕ → ℕ → UInt8
  | 0 => m
  | n + 1 =>
    let mixed := write m i
      (xorBytes (read m i b.blockSize) (read m prev b.blockSize))
    let encrypted := write mixed i (b.encrypt (read mixed i b.blockSize))
    encryptLoop b encrypted i (i + b.blockSize) n

def encryptCBC (block : Option CipherBlock) (m : ℕ → UInt8) (iv buf : Slice) :
    Except String (ℕ → UInt8) :=
  match block with
  | none => .error errCBCArgs
  | some b =>
    if iv.length ≠ b.blockSize ∨ buf.length % b.blockSize ≠ 0 then .error errCBCArgs
    -- `XORBytes` of the first block and the vector
    else if buf.length ≠ 0 ∧ inexactOverlap iv.start buf.start b.blockSize then
      .error panicOverlap
    else .ok (encryptLoop b m iv.start buf.start (buf.length / b.blockSize))

def decryptLoop (b : CipherBlock) (m : ℕ → UInt8) (prev : Bytes) (src dst : ℕ) : ℕ → ℕ → UInt8
  | 0 => m
  | n + 1 =>
    let ciph := read m src b.blockSize
    let decrypted := write m dst (b.decrypt (read m src b.blockSize))
    let mixed := write decrypted dst
      (xorBytes (read decrypted dst b.blockSize) prev)
    decryptLoop b mixed ciph (src + b.blockSize) (dst + b.blockSize) n

def decryptCBC (block : Option CipherBlock) (m : ℕ → UInt8) (iv src dst : Slice) :
    Except String (ℕ → UInt8) :=
  match block with
  | none => .error errCBCArgs
  | some b =>
    if iv.length ≠ b.blockSize ∨ src.length ≠ dst.length ∨ src.length % b.blockSize ≠ 0 then
      .error errCBCArgs
    else if 32 < b.blockSize then .error errCBCArgs
    -- `Decrypt` of a block
    else if src.length ≠ 0 ∧ inexactOverlap src.start dst.start b.blockSize then
      .error panicOverlap
    else
      .ok (decryptLoop b m (read m iv.start b.blockSize) src.start dst.start
        (src.length / b.blockSize))

section

variable {b : CipherBlock} {m : ℕ → UInt8}

lemma write_twice {i : ℕ} {x y : Bytes} {f : Bytes → Bytes} (hx : x.length = b.blockSize)
    (hy : y = f x) (hlen : y.length = b.blockSize) :
    write (write m i x) i (f (read (write m i x) i b.blockSize)) =
      write m i y := by
  rw [← hx, read_write, ← hy]
  exact write_write (hx.trans hlen.symm)

/-- **The loop of `EncryptCBC`** chains the blocks, and leaves all others as they are. -/
lemma encryptLoop_eq (hb : b.Lawful) (m : ℕ → UInt8) (prev i n : ℕ) :
    blocks (encryptLoop b m prev i n) b.blockSize i n =
        Chaining.encrypt xorBytes b.encrypt (read m prev b.blockSize)
          (blocks m b.blockSize i n) ∧
      ∀ a, a < i ∨ i + n * b.blockSize ≤ a → encryptLoop b m prev i n a = m a := by
  induction n generalizing m prev i with
  | zero => exact ⟨rfl, fun _ _ => rfl⟩
  | succ n ih =>
    have hmixed := length_xorBytes (length_read m i b.blockSize)
      (length_read m prev b.blockSize)
    -- the block that is written first
    generalize hc : b.encrypt (xorBytes (read m i b.blockSize)
      (read m prev b.blockSize)) = c
    have hlen : c.length = b.blockSize := hc ▸ hb.length_encrypt _ hmixed
    obtain ⟨hblocks, hframe⟩ := ih (write m i c) i (i + b.blockSize)
    have hloop : encryptLoop b m prev i (n + 1) =
        encryptLoop b (write m i c) i (i + b.blockSize) n := by
      rw [encryptLoop]
      rw [write_twice hmixed hc.symm hlen]
    have hfirst : read (encryptLoop b (write m i c) i (i + b.blockSize) n) i
        b.blockSize = c := by
      rw [read_congr fun a _ ha => hframe a (.inl ha), ← hlen, read_write]
    have hrest : blocks (write m i c) b.blockSize (i + b.blockSize) n =
        blocks m b.blockSize (i + b.blockSize) n :=
      blocks_congr fun a ha _ => write_of_le (by omega)
    have hread : read (write m i c) i b.blockSize = c := by
      rw [← hlen, read_write]
    rw [hloop]
    constructor
    · rw [blocks, blocks, Chaining.encrypt, hfirst, hblocks, hread, hrest, hc]
    · intro a ha
      rw [Nat.succ_mul] at ha
      rw [hframe a (by omega)]
      obtain ha | ha := ha
      · exact write_of_lt ha
      · exact write_of_le (by omega)

/-- **The loop of `DecryptCBC`**, with the slices in one place or apart. -/
lemma decryptLoop_eq (hb : b.Lawful) (m : ℕ → UInt8) {prev : Bytes}
    (hprev : prev.length = b.blockSize) (src dst : ℕ)
    (hplace : dst ≤ src ∨ src + n * b.blockSize ≤ dst) :
    blocks (decryptLoop b m prev src dst n) b.blockSize dst n =
        Chaining.decrypt xorBytes b.decrypt prev (blocks m b.blockSize src n) ∧
      ∀ a, a < dst ∨ dst + n * b.blockSize ≤ a → decryptLoop b m prev src dst n a = m a := by
  induction n generalizing m prev src dst with
  | zero => exact ⟨rfl, fun _ _ => rfl⟩
  | succ n ih =>
    rw [Nat.succ_mul] at hplace
    have hdecrypted := hb.length_decrypt _ (length_read m src b.blockSize)
    generalize hp : xorBytes (b.decrypt (read m src b.blockSize)) prev = p
    have hlen : p.length = b.blockSize := hp ▸ length_xorBytes hdecrypted hprev
    obtain ⟨hblocks, hframe⟩ := ih (write m dst p)
      (length_read m src b.blockSize) (src + b.blockSize) (dst + b.blockSize) (by omega)
    have hloop : decryptLoop b m prev src dst (n + 1) =
        decryptLoop b (write m dst p) (read m src b.blockSize)
          (src + b.blockSize) (dst + b.blockSize) n := by
      rw [decryptLoop]
      rw [write_twice (f := fun x => xorBytes x prev) hdecrypted hp.symm hlen]
    have hfirst : read (decryptLoop b (write m dst p)
        (read m src b.blockSize) (src + b.blockSize) (dst + b.blockSize) n) dst
        b.blockSize = p := by
      rw [read_congr fun a _ ha => hframe a (.inl ha), ← hlen, read_write]
    -- what is written now does not touch what is still to be read
    have hrest : blocks (write m dst p) b.blockSize (src + b.blockSize) n =
        blocks m b.blockSize (src + b.blockSize) n := by
      refine blocks_congr fun a ha hn => ?_
      obtain hbefore | hafter := hplace
      · exact write_of_le (by omega)
      · exact write_of_lt (by omega)
    rw [hloop]
    constructor
    · rw [blocks, blocks, Chaining.decrypt, hfirst, hblocks, hrest, hp]
    · intro a ha
      rw [Nat.succ_mul] at ha
      rw [hframe a (by omega)]
      obtain ha | ha := ha
      · exact write_of_lt ha
      · exact write_of_le (by omega)

/-- **`EncryptCBC` is textbook chaining in place.** -/
theorem encryptCBC_eq (hb : b.Lawful) (m : ℕ → UInt8) (iv buf : Slice)
    (hiv : iv.length = b.blockSize) (hbuf : buf.length = n * b.blockSize)
    (hover : ¬ inexactOverlap iv.start buf.start b.blockSize) :
    ∃ m', encryptCBC (some b) m iv buf = .ok m' ∧
      blocks m' b.blockSize buf.start n =
        Chaining.encrypt xorBytes b.encrypt (read m iv.start b.blockSize)
          (blocks m b.blockSize buf.start n) ∧
      ∀ a, a < buf.start ∨ buf.start + buf.length ≤ a → m' a = m a := by
  have hdiv : buf.length / b.blockSize = n := by
    rw [hbuf, Nat.mul_div_cancel _ hb.blockSize_pos]
  have hmod : buf.length % b.blockSize = 0 := by rw [hbuf, Nat.mul_mod_left]
  refine ⟨encryptLoop b m iv.start buf.start n, ?_, ?_⟩
  · rw [encryptCBC, if_neg (by simp [hiv, hmod]), if_neg fun h => hover h.2, hdiv]
  · rw [hbuf]
    exact encryptLoop_eq hb m iv.start buf.start n

/-- **`DecryptCBC` is textbook chaining**, also where it is given the same slice twice. -/
theorem decryptCBC_eq (hb : b.Lawful) (hsize : b.blockSize ≤ 32) (m : ℕ → UInt8)
    (iv src dst : Slice) (hiv : iv.length = b.blockSize) (hsrc : src.length = n * b.blockSize)
    (hdst : dst.length = n * b.blockSize)
    (hplace : src = dst ∨ dst.start + dst.length ≤ src.start ∨ src.start + src.length ≤ dst.start) :
    ∃ m', decryptCBC (some b) m iv src dst = .ok m' ∧
      blocks m' b.blockSize dst.start n =
        Chaining.decrypt xorBytes b.decrypt (read m iv.start b.blockSize)
          (blocks m b.blockSize src.start n) ∧
      ∀ a, a < dst.start ∨ dst.start + dst.length ≤ a → m' a = m a := by
  have hdiv : src.length / b.blockSize = n := by
    rw [hsrc, Nat.mul_div_cancel _ hb.blockSize_pos]
  have horder : dst.start ≤ src.start ∨ src.start + n * b.blockSize ≤ dst.start := by
    obtain rfl | hbefore | hafter := hplace
    · exact .inl (le_refl _)
    · exact .inl (by omega)
    · exact .inr (by omega)
  have hover : ¬ (src.length ≠ 0 ∧ inexactOverlap src.start dst.start b.blockSize) := by
    rintro ⟨hne, hapart, hsrc', hdst'⟩
    have hle : b.blockSize ≤ n * b.blockSize :=
      Nat.le_mul_of_pos_left _ (Nat.pos_of_ne_zero fun h => hne (by rw [hsrc, h, zero_mul]))
    obtain rfl | hbefore | hafter := hplace
    · exact hapart rfl
    · omega
    · omega
  refine ⟨decryptLoop b m (read m iv.start b.blockSize) src.start dst.start n, ?_, ?_⟩
  · rw [decryptCBC, if_neg (by simp [hiv, hsrc, hdst]), if_neg (by omega), if_neg hover, hdiv]
  · rw [hdst]
    exact decryptLoop_eq hb m (length_read _ _ _) src.start dst.start horder

end

/-! ## Padding -/

def aesBlockSize : ℕ := 16

def paddingLen (n : ℕ) : ℕ := aesBlockSize - n % aesBlockSize

def pkcs7 (n : ℕ) : Bytes := .replicate (paddingLen n) (.ofNat (paddingLen n))

def removePKCS7Padding (plaintext : Bytes) : Except String Bytes :=
  let padding := (plaintext.getLastD 0).toNat
  if plaintext.length = 0 then .error "invalid padding: plaintext is empty"
  else if plaintext.length % aesBlockSize ≠ 0 then .error "invalid padding size"
  else if aesBlockSize < padding ∨ padding = 0 then .error "invalid padding size"
  else if plaintext.length < padding then
    .error "invalid padding: padding size is larger than plaintext"
  else
    let bad := (plaintext.drop (plaintext.length - padding)).foldl
      (fun bad x => bad ||| (x ^^^ UInt8.ofNat padding)) 0
    if bad ≠ 0 then .error "invalid padding bytes"
    else .ok (plaintext.take (plaintext.length - padding))

lemma paddingLen_pos (n : ℕ) : 0 < paddingLen n := by
  have h := Nat.mod_lt n (y := aesBlockSize) (by decide)
  rw [paddingLen]
  omega

lemma paddingLen_le (n : ℕ) : paddingLen n ≤ aesBlockSize := Nat.sub_le _ _

lemma length_pkcs7 (n : ℕ) : (pkcs7 n).length = paddingLen n := List.length_replicate

lemma mod_add_paddingLen (n : ℕ) : (n + paddingLen n) % aesBlockSize = 0 := by
  simp only [paddingLen, aesBlockSize]
  omega

lemma getLastD_replicate {x d : UInt8} (p : Bytes) (h : 0 < n) :
    (p ++ List.replicate n x).getLastD d = x := by
  obtain ⟨k, rfl⟩ := Nat.exists_eq_add_of_lt h
  rw [List.replicate_succ', ← List.append_assoc, List.getLastD_concat]

lemma foldl_replicate (n : ℕ) (x : UInt8) :
    (List.replicate n x).foldl (fun bad y => bad ||| (y ^^^ x)) 0 = 0 := by
  induction n with
  | zero => rfl
  | succ n ih =>
    rw [List.replicate_succ, List.foldl_cons, UInt8.xor_self]
    exact ih

/-- **Padding is removed again.** -/
lemma removePKCS7Padding_append (p : Bytes) : removePKCS7Padding (p ++ pkcs7 p.length) = .ok p := by
  have hpos := paddingLen_pos p.length
  have hle := paddingLen_le p.length
  have hlast : ((p ++ pkcs7 p.length).getLastD 0).toNat = paddingLen p.length := by
    rw [pkcs7, getLastD_replicate p hpos]
    exact UInt8.toNat_ofNat_of_lt' (hle.trans_lt (by decide))
  have hlen : (p ++ pkcs7 p.length).length = p.length + paddingLen p.length := by
    rw [List.length_append, length_pkcs7]
  have hbad : (pkcs7 p.length).foldl
      (fun bad x => bad ||| (x ^^^ .ofNat (paddingLen p.length))) 0 = 0 :=
    foldl_replicate _ _
  rw [removePKCS7Padding]
  rw [hlast, hlen, if_neg (by omega), if_neg (by simp [mod_add_paddingLen]), if_neg (by omega),
    if_neg (by omega), Nat.add_sub_cancel, List.drop_left, hbad, if_neg (by simp), List.take_left]

/-! ## A buffer is encrypted, and read back -/

/-- What all encryptions do with their buffer: the vector, the plaintext and the padding are put
there, and all after the vector is encrypted in place. -/
def fillCBC (block : CipherBlock) (iv plaintext : Bytes) (out : ℕ → UInt8) :
    Except String (ℕ → UInt8) :=
  let out := write out 0 iv
  let out := write out aesBlockSize plaintext
  let out := write out (aesBlockSize + plaintext.length) (pkcs7 plaintext.length)
  encryptCBC (some block) out ⟨0, aesBlockSize⟩
    ⟨aesBlockSize, plaintext.length + paddingLen plaintext.length⟩

/-- What all decryptions do: the plaintext is a new slice, here the one after the ciphertext. -/
def openCBC (block : CipherBlock) (ciphertext : Bytes) : Except String Bytes :=
  if ciphertext.length < aesBlockSize then .error "ciphertext is too short"
  else if (ciphertext.length - aesBlockSize) % aesBlockSize ≠ 0 then
    .error "ciphertext is not a multiple of the block size"
  else
    match decryptCBC (some block) (load 0 ciphertext) ⟨0, aesBlockSize⟩
        ⟨aesBlockSize, ciphertext.length - aesBlockSize⟩
        ⟨ciphertext.length, ciphertext.length - aesBlockSize⟩ with
    | .error e => .error e
    | .ok out =>
      removePKCS7Padding (read out ciphertext.length (ciphertext.length - aesBlockSize))

section

variable {b : CipherBlock}

lemma read_filled (iv plaintext : Bytes) (out : ℕ → UInt8) (hiv : iv.length = aesBlockSize) :
    let m := write (write (write out 0 iv) aesBlockSize plaintext)
      (aesBlockSize + plaintext.length) (pkcs7 plaintext.length)
    read m 0 aesBlockSize = iv ∧
      read m aesBlockSize (plaintext.length + paddingLen plaintext.length) =
        plaintext ++ pkcs7 plaintext.length := by
  constructor
  · rw [read_write_of_disjoint (.inr (by omega)),
      read_write_of_disjoint (.inr (by omega)), ← hiv, read_write]
  · rw [read_add, read_write_of_disjoint (.inr (by omega)), read_write, ← length_pkcs7, read_write]

lemma decrypt_encrypt_blocks (hb : b.Lawful) (m : ℕ → UInt8) (i n : ℕ) {iv : Bytes}
    (hiv : iv.length = b.blockSize) :
    Chaining.decrypt xorBytes b.decrypt iv
        (Chaining.encrypt xorBytes b.encrypt iv (blocks m b.blockSize i n)) =
      blocks m b.blockSize i n :=
  Chaining.decrypt_encrypt (fun x => x.length = b.blockSize)
    (fun _ _ => length_xorBytes) (fun _ _ hx hy => xorBytes_xorBytes (hx.trans hy.symm))
    hb.length_encrypt hb.decrypt_encrypt hiv fun _ => length_of_mem_blocks

lemma openCBC_eq (hb : b.Lawful) (hsize : b.blockSize = aesBlockSize) (m₀ m : ℕ → UInt8)
    (hblocks : blocks m b.blockSize aesBlockSize n =
      Chaining.encrypt xorBytes b.encrypt (read m 0 aesBlockSize)
        (blocks m₀ b.blockSize aesBlockSize n)) :
    openCBC b (read m 0 (aesBlockSize + n * aesBlockSize)) =
      removePKCS7Padding (read m₀ aesBlockSize (n * aesBlockSize)) := by
  generalize hc : read m 0 (aesBlockSize + n * aesBlockSize) = c
  have hlen : c.length = aesBlockSize + n * aesBlockSize := by rw [← hc, length_read]
  have hload : ∀ a, a < aesBlockSize + n * aesBlockSize → load 0 c a = m a := fun a ha => by
    rw [← hc, load_read 0 m ha]
  obtain ⟨out, hout, hplain, -⟩ := decryptCBC_eq hb (by rw [hsize]; decide) (load 0 c)
    ⟨0, aesBlockSize⟩ ⟨aesBlockSize, c.length - aesBlockSize⟩
    ⟨c.length, c.length - aesBlockSize⟩ hsize.symm
    (by rw [hsize, hlen, Nat.add_sub_cancel_left]) (by rw [hsize, hlen, Nat.add_sub_cancel_left])
    (.inr (.inr (by dsimp only; omega)))
  have hvector : read (load 0 c) 0 b.blockSize = read m 0 aesBlockSize := by
    rw [hsize]
    exact read_congr fun a _ ha => hload a (by omega)
  have hcipher : blocks (load 0 c) b.blockSize aesBlockSize n =
      blocks m b.blockSize aesBlockSize n := by
    rw [hsize]
    exact blocks_congr fun a _ ha => hload a ha
  rw [hvector, hcipher, hblocks,
    decrypt_encrypt_blocks hb m₀ _ _ (by rw [length_read, hsize])] at hplain
  have hread := congrArg List.flatten hplain
  rw [flatten_blocks, flatten_blocks, hsize] at hread
  rw [openCBC, if_neg (by omega), if_neg (by rw [hlen]; simp), hout]
  rw [← hread, hlen, Nat.add_sub_cancel_left]

/-- **What was put into a buffer and encrypted there is read back.** -/
theorem openCBC_fillCBC (hb : b.Lawful) (hsize : b.blockSize = aesBlockSize) {iv : Bytes}
    (hiv : iv.length = aesBlockSize) (p : Bytes) (out : ℕ → UInt8) :
    ∃ m, fillCBC b iv p out = .ok m ∧
      openCBC b (read m 0 (aesBlockSize + (p.length + paddingLen p.length))) = .ok p := by
  obtain ⟨n, hn⟩ := Nat.dvd_of_mod_eq_zero (mod_add_paddingLen p.length)
  rw [mul_comm] at hn
  obtain ⟨hvector, hplain⟩ := read_filled iv p out hiv
  generalize hm₀ : write (write (write out 0 iv) aesBlockSize p)
    (aesBlockSize + p.length) (pkcs7 p.length) = m₀ at hvector hplain
  obtain ⟨m, hm, hblocks, hframe⟩ := encryptCBC_eq hb m₀ ⟨0, aesBlockSize⟩
    ⟨aesBlockSize, p.length + paddingLen p.length⟩ hsize.symm (hn.trans (by rw [hsize]))
    (by simp [inexactOverlap, hsize])
  have hkept : read m 0 aesBlockSize = read m₀ 0 b.blockSize := by
    rw [hsize]
    exact read_congr fun a _ ha => hframe a (.inl (by simpa using ha))
  refine ⟨m, by rw [fillCBC, hm₀, hm], ?_⟩
  rw [← hkept] at hblocks
  rw [hn, openCBC_eq hb hsize m₀ m hblocks, ← hn, hplain, removePKCS7Padding_append]

end

end Reticulum

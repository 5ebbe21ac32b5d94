import Mathlib.Tactic.IntervalCases
import Reticulum.Core.Bytes
import Reticulum.Core.Fallible

/-!
# Interface access codes

An interface with a network name or a passphrase accepts only packets of nodes that know them.  Each
packet carries an **access code**, the end of its signature under a key that is derived from the
two, and is masked with a key stream that is derived from the code (`pkg/ifac/ifac.go`).  Masking
and unmasking are inverse, but for packets of two bytes: **`mask_unmask_iff`**.
-/

namespace Reticulum

open List

def ifacFlag : UInt8 := 0x80
def ifacMinSize : ℤ := 1
def ifacDefaultSize : ℤ := 16
def ifacKeyLen : ℕ := 64

def ifacSalt : Bytes :=
  [0xad, 0xf5, 0x4d, 0x88, 0x2c, 0x9a, 0x9b, 0x80, 0x77, 0x1e, 0xb4, 0x99, 0x5d, 0x70, 0x2d, 0x4a,
    0x3e, 0x73, 0x33, 0x91, 0xb2, 0xa0, 0xf5, 0x3f, 0x41, 0x6d, 0x9f, 0x90, 0x7e, 0x55, 0xcf, 0xf8]

/-- The cryptography: SHA-256, HMAC-SHA256 (key, message), and `identity.FromBytes`, of which an
identity is what it signs with. -/
structure IfacCrypto where
  hash : Bytes → Bytes
  hmac : Bytes → Bytes → Bytes
  length_hmac : ∀ key msg, (hmac key msg).length = 32
  fromBytes : Bytes → Except String (Bytes → Except String Bytes)

/-! ## The key stream -/

/-- `n` blocks, the first of them with the number `i + 1`; each one depends on the one before. -/
def hkdfBlocks (C : IfacCrypto) (prk info : Bytes) : ℕ → ℕ → Bytes → Bytes
  | 0, _, _ => []
  | n + 1, i, block =>
    let block := C.hmac prk (block ++ info ++ [.ofNat (i + 1)])
    block ++ hkdfBlocks C prk info n (i + 1) block

def implDeriveKeyWrite (C : IfacCrypto) (length : ℕ) (secret salt info : Bytes) :
    Except String Bytes :=
  if length < 1 then .error "invalid output key length"
  else if secret.length = 0 then .error "cannot derive key from empty input material"
  else
    let salt := if salt.length = 0 then replicate 32 0 else salt
    let prk := C.hmac salt secret
    let iterations := (length + 31) / 32
    if 255 < iterations then .error "hkdf: output length exceeds maximum"
    else .ok ((hkdfBlocks C prk info iterations 0 []).take length)

lemma length_hkdfBlocks (C : IfacCrypto) (prk info : Bytes) (n i : ℕ) (block : Bytes) :
    (hkdfBlocks C prk info n i block).length = 32 * n := by
  induction n generalizing i block with
  | zero => rfl
  | succ n ih =>
    rw [hkdfBlocks, length_append, C.length_hmac, ih]
    omega

lemma length_implDeriveKeyWrite {C : IfacCrypto} {length : ℕ} {secret salt info key : Bytes}
    (h : implDeriveKeyWrite C length secret salt info = .ok key) : key.length = length := by
  simp only [implDeriveKeyWrite, Fallible.ite_error_eq_ok, Except.ok.injEq] at h
  obtain ⟨-, -, -, rfl⟩ := h
  rw [length_take, length_hkdfBlocks]
  omega

/-! ## The identity -/

/-- `size` is never zero, since `New` sees to that. -/
structure IfacIdentity where
  size : ℕ
  size_pos : 0 < size
  key : Bytes
  identity : Bytes → Except String Bytes

def ifacSize (size : ℤ) : ℕ :=
  let size := if size ≤ 0 then ifacDefaultSize else size
  (if size < ifacMinSize then ifacMinSize else size).toNat

lemma ifacSize_pos (size : ℤ) : 0 < ifacSize size := by
  simp only [ifacSize, ifacMinSize]
  split_ifs <;> omega

namespace IfacIdentity

def new (C : IfacCrypto) (size : ℤ) (netname netkey : Bytes) : Except String IfacIdentity :=
  if netname.length = 0 ∧ netkey.length = 0 then
    .error "ifac: at least one of network_name or passphrase must be set"
  else do
    let origin := (if netname.length ≠ 0 then C.hash netname else []) ++
      (if netkey.length ≠ 0 then C.hash netkey else [])
    let key ← (implDeriveKeyWrite C ifacKeyLen (C.hash origin) ifacSalt []).mapError
      ("ifac: hkdf derive failed: " ++ ·)
    let id ← (C.fromBytes key).mapError ("ifac: identity load failed: " ++ ·)
    .ok { size := ifacSize size, size_pos := ifacSize_pos size, key, identity := id }

def sign (i : IfacIdentity) (raw : Bytes) : Except String Bytes := do
  let sig ← i.identity raw
  if sig.length < i.size then
    .error ("ifac: signature shorter (" ++ toString sig.length ++ ") than ifac size (" ++
      toString i.size ++ ")")
  else .ok (sig.drop (sig.length - i.size))

/-- What is done to the byte with the number `k`: the access code stays as it is, and so does the
first bit. -/
def maskByte (size : ℕ) (mask : Bytes) (k : ℕ) (b : UInt8) : UInt8 :=
  if k = 0 then (b ^^^ mask.getD k 0) ||| ifacFlag
  else if k = 1 ∨ size + 1 < k then b ^^^ mask.getD k 0
  else b

/-- `Mask`; `MaskInto` writes the same bytes to a buffer of the caller. -/
def mask (C : IfacCrypto) (i : IfacIdentity) (raw : Bytes) : Except String Bytes :=
  if raw.length < 2 then
    .error ("ifac: packet too short (" ++ toString raw.length ++ " bytes) for masking")
  else do
    let ifacSig ← i.sign raw
    let maskLen := raw.length + i.size
    let dst := (raw.getD 0 0 ||| ifacFlag) :: raw.getD 1 0 :: (ifacSig ++ raw.drop 2)
    let mask ← (implDeriveKeyWrite C maskLen ifacSig i.key []).mapError
      ("ifac: hkdf mask derive failed: " ++ ·)
    .ok (dst.mapIdx (maskByte i.size mask))

/-- The comparison that takes the same time for all byte strings of one length. -/
def equal (a b : Bytes) : Bool :=
  a.length = b.length ∧ (zipWith (· ^^^ ·) a b).foldl (· ||| ·) 0 = 0

/-- The packet and whether it is accepted; one that carries no access code is returned as it is. -/
def unmask (C : IfacCrypto) (i : IfacIdentity) (raw : Bytes) : Except String (Bytes × Bool) :=
  if raw.length < 2 then
    .error ("ifac: packet too short (" ++ toString raw.length ++ " bytes) for unmasking")
  else if raw.getD 0 0 &&& ifacFlag ≠ ifacFlag then .ok (raw, true)
  else if raw.length ≤ 2 + i.size then .ok ([], false)
  else do
    let ifacSig := (raw.drop 2).take i.size
    let mask ← (implDeriveKeyWrite C raw.length ifacSig i.key []).mapError
      ("ifac: hkdf unmask derive failed: " ++ ·)
    let rebuilt := ((raw.getD 0 0 ^^^ mask.getD 0 0) &&& 0x7f) ::
      (raw.getD 1 0 ^^^ mask.getD 1 0) ::
      zipWith (· ^^^ ·) (raw.drop (2 + i.size)) (mask.drop (2 + i.size))
    let expected ← i.sign rebuilt
    if !equal expected ifacSig then .ok ([], false) else .ok (rebuilt, true)

/-! ## Bytes -/

lemma unmask_mask_head (a m : UInt8) (h : a &&& ifacFlag ≠ ifacFlag) :
    (((((a ||| ifacFlag) ^^^ m) ||| ifacFlag) ^^^ m) &&& 0x7f) = a := by
  have htop : a.toBitVec[7] = false := by
    by_contra hset
    refine h (UInt8.toBitVec_inj.1 ?_)
    ext i hi
    interval_cases i <;> simp_all [ifacFlag]
  apply UInt8.toBitVec_inj.1
  ext i hi
  interval_cases i <;> simp_all [ifacFlag]

lemma mask_unmask_head (a m : UInt8) (h : a &&& ifacFlag = ifacFlag) :
    (((((a ^^^ m) &&& 0x7f) ||| ifacFlag) ^^^ m) ||| ifacFlag) = a := by
  have htop : a.toBitVec[7] := by
    have hbit := congrArg (fun x => x.toBitVec[7]) h
    simpa [ifacFlag] using hbit
  apply UInt8.toBitVec_inj.1
  ext i hi
  interval_cases i <;> simp_all [ifacFlag]

lemma flag_or (a : UInt8) : (a ||| ifacFlag) &&& ifacFlag = ifacFlag := by
  apply UInt8.toBitVec_inj.1
  ext i hi
  interval_cases i <;> simp_all

lemma xor_xor_cancel (a m : UInt8) : a ^^^ m ^^^ m = a := by
  rw [UInt8.xor_assoc, UInt8.xor_self, UInt8.xor_zero]

lemma zipWith_xor_cancel {bs ms : Bytes} (h : bs.length ≤ ms.length) :
    zipWith (· ^^^ ·) (zipWith (· ^^^ ·) bs ms) ms = bs := by
  induction bs generalizing ms with
  | nil => rfl
  | cons b bs ih =>
    cases ms with
    | nil => cases h
    | cons m ms =>
      rw [zipWith_cons_cons, zipWith_cons_cons, xor_xor_cancel, ih (Nat.le_of_succ_le_succ h)]

lemma foldl_or_eq_zero (bs : Bytes) (b : UInt8) :
    bs.foldl (· ||| ·) b = 0 ↔ b = 0 ∧ ∀ c ∈ bs, c = 0 := by
  induction bs generalizing b with
  | nil => simp
  | cons c bs ih =>
    rw [foldl_cons, ih, UInt8.or_eq_zero_iff]
    simp [and_assoc]

lemma zipWith_xor_eq_zero {a b : Bytes} (h : a.length = b.length) :
    (∀ c ∈ zipWith (· ^^^ ·) a b, c = 0) ↔ a = b := by
  induction a generalizing b with
  | nil =>
    have hb : b = [] := eq_nil_of_length_eq_zero h.symm
    simp [hb]
  | cons x a ih =>
    cases b with
    | nil => cases h
    | cons y b =>
      rw [zipWith_cons_cons, forall_mem_cons, UInt8.xor_eq_zero_iff,
        ih (Nat.succ_injective h), cons.injEq]

lemma equal_iff {a b : Bytes} : equal a b ↔ a = b := by
  simp only [equal, decide_eq_true_eq, foldl_or_eq_zero, true_and]
  constructor
  · rintro ⟨hlength, hzero⟩
    exact (zipWith_xor_eq_zero hlength).1 hzero
  · rintro rfl
    exact ⟨rfl, (zipWith_xor_eq_zero rfl).2 rfl⟩

lemma mapIdx_maskByte {size : ℕ} {sig rest mask : Bytes} (x y : UInt8) (hsig : sig.length = size)
    (hmask : mask.length = 2 + size + rest.length) :
    (x :: y :: (sig ++ rest)).mapIdx (maskByte size mask) =
      ((x ^^^ mask.getD 0 0) ||| ifacFlag) :: (y ^^^ mask.getD 1 0) ::
        (sig ++ zipWith (· ^^^ ·) rest (mask.drop (2 + size))) := by
  rw [mapIdx_cons, mapIdx_cons, mapIdx_append]
  have hcode : sig.mapIdx (fun k => maskByte size mask (k + 1 + 1)) = sig := by
    refine ext_getElem (by simp) ?_
    intro k hk hk'
    have hlow : ¬ size + 1 < k + 1 + 1 := by omega
    simp [maskByte, hlow]
  have hrest : rest.mapIdx (fun k => maskByte size mask (k + sig.length + 1 + 1)) =
      zipWith (· ^^^ ·) rest (mask.drop (2 + size)) := by
    refine ext_getElem (by simp; omega) ?_
    intro k hk hk'
    have hhigh : size + 1 < 2 + size + k := by omega
    have hindex : k + sig.length + 1 + 1 = 2 + size + k := by omega
    have hlt : 2 + size + k < mask.length := by
      rw [length_mapIdx] at hk
      omega
    simp [maskByte, hhigh, hindex, hlt]
  rw [hcode, hrest]
  rfl

/-! ## Masking and unmasking -/

variable {i : IfacIdentity} {raw : Bytes} {C : IfacCrypto} {masked : Bytes}

lemma length_of_sign {sig : Bytes} (h : i.sign raw = .ok sig) : sig.length = i.size := by
  simp only [sign, Fallible.bind_eq_ok, Fallible.ite_error_eq_ok, Except.ok.injEq] at h
  obtain ⟨full, -, hlong, rfl⟩ := h
  rw [length_drop]
  omega

/-- **What is masked, and how.** -/
lemma mask_eq_ok :
    i.mask C raw = .ok masked ↔ ∃ x y rest sig mask, raw = x :: y :: rest ∧ i.sign raw = .ok sig ∧
      implDeriveKeyWrite C (raw.length + i.size) sig i.key [] = .ok mask ∧
      masked = (((x ||| ifacFlag) ^^^ mask.getD 0 0) ||| ifacFlag) :: (y ^^^ mask.getD 1 0) ::
        (sig ++ zipWith (· ^^^ ·) rest (mask.drop (2 + i.size))) := by
  constructor
  · intro h
    simp only [mask, Fallible.ite_error_eq_ok, Fallible.bind_eq_ok, Fallible.mapError_eq_ok,
      Except.ok.injEq] at h
    obtain ⟨hlen, sig, hsig, m, hm, rfl⟩ := h
    rcases raw with _ | ⟨x, _ | ⟨y, rest⟩⟩
    · exact absurd (by decide) hlen
    · exact absurd (by simp) hlen
    · have hmask : m.length = 2 + i.size + rest.length := by
        rw [length_implDeriveKeyWrite hm, length_cons, length_cons]
        omega
      exact ⟨x, y, rest, sig, m, rfl, hsig, hm, mapIdx_maskByte _ _ (length_of_sign hsig) hmask⟩
  · rintro ⟨x, y, rest, sig, m, rfl, hsig, hm, rfl⟩
    have hlen : ¬ (x :: y :: rest).length < 2 := by simp
    simp only [mask, Fallible.ite_error_eq_ok, Fallible.bind_eq_ok, Fallible.mapError_eq_ok,
      Except.ok.injEq]
    have hmask : m.length = 2 + i.size + rest.length := by
      rw [length_implDeriveKeyWrite hm, length_cons, length_cons]
      omega
    exact ⟨hlen, sig, hsig, m, hm, mapIdx_maskByte _ _ (length_of_sign hsig) hmask⟩

/-- **What is accepted of the packets with an access code**, and what is returned for it. -/
lemma unmask_eq_ok {x y : UInt8} {sig rest : Bytes} (hx : x &&& ifacFlag = ifacFlag)
    (hsig : sig.length = i.size) :
    i.unmask C (x :: y :: (sig ++ rest)) = .ok (raw, true) ↔ rest ≠ [] ∧ ∃ mask,
      implDeriveKeyWrite C (2 + i.size + rest.length) sig i.key [] = .ok mask ∧
      raw = ((x ^^^ mask.getD 0 0) &&& 0x7f) :: (y ^^^ mask.getD 1 0) ::
        zipWith (· ^^^ ·) rest (mask.drop (2 + i.size)) ∧
      i.sign raw = .ok sig := by
  have hlen : (x :: y :: (sig ++ rest)).length = 2 + i.size + rest.length := by
    simp only [length_cons, length_append]
    omega
  have hcode : ((x :: y :: (sig ++ rest)).drop 2).take i.size = sig := by
    simp [← hsig]
  have hrest : (x :: y :: (sig ++ rest)).drop (2 + i.size) = rest := by
    rw [add_comm, ← hsig]
    simp
  have hlong : ¬ (x :: y :: (sig ++ rest)).length < 2 := by simp
  have hflag : ¬ (x :: y :: (sig ++ rest)).getD 0 0 &&& ifacFlag ≠ ifacFlag := not_not.2 hx
  rw [unmask, if_neg hlong, if_neg hflag, hlen, hcode, hrest]
  by_cases hnil : rest = []
  · simp [hnil]
  · have hpos := length_pos_of_ne_nil hnil
    rw [if_neg (by omega)]
    simp only [Fallible.bind_eq_ok, Fallible.mapError_eq_ok]
    constructor
    · rintro ⟨m, hm, expected, hexpected, hequal⟩
      split_ifs at hequal with heq
      · cases hequal
      · have hsame : expected = sig := equal_iff.1 (by simpa using heq)
        cases hequal
        exact ⟨hnil, m, hm, rfl, hsame ▸ hexpected⟩
    · rintro ⟨-, m, hm, rfl, hsign⟩
      refine ⟨m, hm, sig, hsign, ?_⟩
      simp [equal_iff.2 (rfl : sig = sig)]

def Flagged (raw : Bytes) : Prop := raw.getD 0 0 &&& ifacFlag = ifacFlag

lemma unmask_mask_iff (hclear : ¬ Flagged raw) (hmask : i.mask C raw = .ok masked)
    : i.unmask C masked = .ok (raw, true) ↔ 2 < raw.length := by
  obtain ⟨x, y, rest, sig, m, rfl, hsig, hm, rfl⟩ := mask_eq_ok.1 hmask
  have hlen : m.length = 2 + i.size + rest.length := by
    rw [length_implDeriveKeyWrite hm, length_cons, length_cons]
    omega
  have hdrop : rest.length ≤ (m.drop (2 + i.size)).length := by
    rw [length_drop, hlen]
    omega
  have hzip : (zipWith (· ^^^ ·) rest (m.drop (2 + i.size))).length = rest.length := by
    rw [length_zipWith]
    omega
  rw [unmask_eq_ok (flag_or _) (length_of_sign hsig), hzip]
  constructor
  · rintro ⟨hne, -⟩
    have hrest : rest ≠ [] := by
      rintro rfl
      exact hne rfl
    have hpos := length_pos_of_ne_nil hrest
    simp only [length_cons]
    omega
  · intro hlong
    refine ⟨?_, m, ?_, ?_, hsig⟩
    · intro hnil
      rw [hnil] at hzip
      simp only [length_cons, length_nil] at hlong hzip
      omega
    · rw [← hm, length_cons, length_cons]
      congr 1
      omega
    · rw [unmask_mask_head x _ hclear, xor_xor_cancel, zipWith_xor_cancel hdrop]

lemma mask_of_unmask (hset : Flagged masked)
    (h : i.unmask C masked = .ok (raw, true)) : i.mask C raw = .ok masked := by
  have hlong : 2 + i.size < masked.length := by
    by_contra hshort
    have hflag : ¬ masked.getD 0 0 &&& ifacFlag ≠ ifacFlag := not_not.2 hset
    rw [unmask, if_neg hflag, if_pos (not_lt.1 hshort)] at h
    split_ifs at h
    cases h
  obtain ⟨x, y, tail, rfl⟩ : ∃ x y tail, masked = x :: y :: tail := by
    rcases masked with _ | ⟨x, _ | ⟨y, tail⟩⟩
    · cases hlong
    · simp only [length_cons, length_nil] at hlong
      omega
    · exact ⟨x, y, tail, rfl⟩
  have hx : x &&& ifacFlag = ifacFlag := hset
  have hsize : (tail.take i.size).length = i.size := by
    simp only [length_cons] at hlong
    rw [length_take]
    omega
  rw [← take_append_drop i.size tail] at h ⊢
  obtain ⟨-, m, hm, rfl, hsign⟩ := (unmask_eq_ok hx hsize).1 h
  have hlen : m.length = 2 + i.size + (tail.drop i.size).length := length_implDeriveKeyWrite hm
  have hdrop : (tail.drop i.size).length ≤ (m.drop (2 + i.size)).length := by
    rw [length_drop (l := m), hlen]
    omega
  refine mask_eq_ok.2 ⟨_, _, _, tail.take i.size, m, rfl, hsign, ?_, ?_⟩
  · rw [← hm, length_cons, length_cons, length_zipWith]
    congr 1
    omega
  · rw [mask_unmask_head x _ hx, xor_xor_cancel, zipWith_xor_cancel hdrop]

/-- **Masking and unmasking are inverse**, for packets of more than two bytes; and what is accepted
was masked. -/
theorem mask_unmask_iff (C : IfacCrypto) (i : IfacIdentity) :
    (∀ raw masked, ¬ Flagged raw → i.mask C raw = .ok masked →
      (i.unmask C masked = .ok (raw, true) ↔ 2 < raw.length)) ∧
    ∀ masked raw, Flagged masked → i.unmask C masked = .ok (raw, true) →
      i.mask C raw = .ok masked := by
  constructor
  · intro raw masked hclear hmask
    exact unmask_mask_iff hclear hmask
  · intro masked raw hset h
    exact mask_of_unmask hset h

/-- A cryptography in which everything is the same, and an identity with an access code of one
byte. -/
def flatCrypto : IfacCrypto where
  hash _ := [0]
  hmac _ _ := replicate 32 0
  length_hmac _ _ := rfl
  fromBytes _ := .ok fun _ => .ok [7]

def flatIdentity : IfacIdentity where
  size := 1
  size_pos := Nat.one_pos
  key := []
  identity _ := .ok [7]

theorem mask_unmask_three :
    flatIdentity.unmask flatCrypto [0x80, 1, 7, 2] = .ok ([0, 1, 2], true) ∧
      flatIdentity.mask flatCrypto [0, 1, 2] = .ok [0x80, 1, 7, 2] := by
  have hback : flatIdentity.unmask flatCrypto [0x80, 1, 7, 2] = .ok ([0, 1, 2], true) :=
    ((mask_unmask_iff flatCrypto flatIdentity).1 [0, 1, 2] [0x80, 1, 7, 2]
      (by unfold Flagged; decide) rfl).2 (by decide)
  exact ⟨hback, (mask_unmask_iff flatCrypto flatIdentity).2 _ _ (by unfold Flagged; decide) hback⟩

theorem two_bytes_refused :
    ¬ ∀ (C : IfacCrypto) (i : IfacIdentity) (raw masked : Bytes), ¬ Flagged raw →
      i.mask C raw = .ok masked → i.unmask C masked = .ok (raw, true) := by
  intro h
  have hback := h flatCrypto flatIdentity [0, 1] [0x80, 1, 7] (by unfold Flagged; decide) rfl
  cases hback

end IfacIdentity

end Reticulum

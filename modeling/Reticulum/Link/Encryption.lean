import Reticulum.Cryptography.Token

/-!
# What a link encrypts

The payloads of a link (`pkg/link/link_crypto.go`) have the same parts as a token.  The cipher and
the code may come from a cache, which is used in place of the keys, and the ciphertext is put into a
buffer of the caller where that is large enough.  **`encryption_round_trips`** covers both ways of
encrypting, and the routines below them.
-/

namespace Reticulum

def encryptedPayloadLen (plainLen : ℕ) : ℕ :=
  aesBlockSize + plainLen + paddingLen plainLen + sha256Size

/-- The keys of a link, and what it has cached for them.  A hash is reset before each use, hence it
is the function from what is written to it to its sum. -/
structure LinkKeys where
  sessionKey : Bytes
  hmacKey : Bytes
  block : Option CipherBlock
  mac : Option (Bytes → Bytes)

namespace LinkKeys

variable (C : AesHmac)

def errNoKeys : String := "no session keys available"

def errHMACVerificationFailed : String := "HMAC verification failed"

section

variable (k : LinkKeys)

def Missing : Prop :=
  k.block.isNone ∧ k.sessionKey.length = 0 ∨ k.mac.isNone ∧ k.hmacKey.length = 0

instance instDecidableMissing : Decidable k.Missing :=
  inferInstanceAs (Decidable (_ ∨ _))

def cipher : Except String CipherBlock :=
  match k.block with
  | some b => .ok b
  | none => C.newCipher k.sessionKey

def code : Bytes → Bytes := k.mac.getD (C.hmac k.hmacKey)

def buffer (dst : Bytes) (n : ℕ) : ℕ → UInt8 :=
  if dst.length < n then fun _ => 0 else Memory.load 0 dst

def encryptWithKeysInto (iv data dst : Bytes) : Except String Bytes :=
  if k.Missing then .error errNoKeys
  else do
    let block ← k.cipher C
    let ctLen := data.length + paddingLen data.length
    let n := aesBlockSize + ctLen + sha256Size
    let out ← fillCBC block iv data (buffer dst n)
    let signed := Memory.read out 0 (aesBlockSize + ctLen)
    -- `mac.Sum` appends to what is signed
    .ok (Memory.read (Memory.write out (aesBlockSize + ctLen) (k.code C signed)) 0 n)

def decryptWithKeys (data : Bytes) : Except String Bytes :=
  if k.Missing then .error errNoKeys
  else if data.length < aesBlockSize + aesBlockSize + 32 then .error "data too short"
  else
    let signedParts := data.take (data.length - 32)
    let receivedMac := data.drop (data.length - 32)
    if receivedMac ≠ k.code C signedParts then .error errHMACVerificationFailed
    else do
      let block ← k.cipher C
      openCBC block signedParts

end

/-- **Keys that can be used**: a cipher is cached, or its key has a size that AES has, and likewise
for the code. -/
structure Valid (k : LinkKeys) : Prop where
  block : ∀ b ∈ k.block, b.Aes
  sessionKey : k.block = none → AesKey k.sessionKey
  mac : ∀ f ∈ k.mac, ∀ message, (f message).length = sha256Size
  hmacKey : k.mac = none → k.hmacKey ≠ []

/-- The other end of the link: it may have cached other things, but they are made of the same
keys. -/
structure SameKeys (k k' : LinkKeys) : Prop where
  cipher : k.cipher C = k'.cipher C
  code : k.code C = k'.code C

section

variable {C} {k k' : LinkKeys}

lemma Valid.not_missing (h : k.Valid) : ¬ k.Missing := by
  rintro (⟨hnone, hkey⟩ | ⟨hnone, hkey⟩)
  · obtain hsize | hsize | hsize := h.sessionKey (Option.isNone_iff_eq_none.mp hnone)
    all_goals omega
  · exact h.hmacKey (Option.isNone_iff_eq_none.mp hnone) (List.length_eq_zero_iff.mp hkey)

lemma Valid.cipher_eq (hC : C.Lawful) (h : k.Valid) : ∃ b, k.cipher C = .ok b ∧ b.Aes := by
  cases hb : k.block with
  | some b => exact ⟨b, by rw [cipher, hb], h.block b hb⟩
  | none =>
    have hkey := h.sessionKey hb
    exact ⟨C.aes k.sessionKey, by rw [cipher, hb, AesHmac.newCipher_of_aesKey hkey],
      hC.aes _ hkey⟩

lemma Valid.length_code (hC : C.Lawful) (h : k.Valid) (message : Bytes) :
    (k.code C message).length = sha256Size := by
  cases hm : k.mac with
  | some f =>
    rw [code, hm]
    exact h.mac f hm message
  | none =>
    rw [code, hm]
    exact hC.length_hmac _ _

/-- **A payload comes back**, at both ends, whatever was in the buffer. -/
theorem decryptWithKeys_encryptWithKeysInto (hC : C.Lawful) (hk : k.Valid) (hk' : k'.Valid)
    (hsame : k.SameKeys C k') {iv : Bytes} (hiv : iv.length = aesBlockSize) (p dst : Bytes) :
    ∃ out, k.encryptWithKeysInto C iv p dst = .ok out ∧
      out.length = encryptedPayloadLen p.length ∧ k'.decryptWithKeys C out = .ok p := by
  obtain ⟨b, hb, haes⟩ := hk.cipher_eq hC
  obtain ⟨m, hfill, hopen⟩ := openCBC_fillCBC haes.lawful haes.blockSize hiv p
    (buffer dst (aesBlockSize + (p.length + paddingLen p.length) + sha256Size))
  have hpad := paddingLen_pos p.length
  have hmod := mod_add_paddingLen p.length
  generalize hct : p.length + paddingLen p.length = ctLen at hopen hfill hmod
  generalize hsigned : Memory.read m 0 (aesBlockSize + ctLen) = signed at hopen
  have hlen : signed.length = aesBlockSize + ctLen := by rw [← hsigned, Memory.length_read]
  have hcode := hk.length_code hC signed
  -- the code is written after what is signed
  have hread : Memory.read (Memory.write m (aesBlockSize + ctLen) (k.code C signed)) 0
      (aesBlockSize + ctLen + sha256Size) = signed ++ k.code C signed := by
    rw [Memory.read_add, Memory.read_write_of_disjoint (.inr (by omega)), hsigned, zero_add,
      ← hcode, Memory.read_write]
  refine ⟨signed ++ k.code C signed, ?_, ?_, ?_⟩
  · rw [encryptWithKeysInto, if_neg hk.not_missing]
    refine Fallible.bind_eq_ok.mpr ⟨b, hb, Fallible.bind_eq_ok.mpr ⟨m, ?_, ?_⟩⟩
    · rw [hct, hfill]
    · rw [hct, hsigned]
      exact congrArg Except.ok hread
  · rw [List.length_append, hlen, hcode, encryptedPayloadLen]
    omega
  · have hbody : (signed ++ k.code C signed).length - 32 = signed.length := by
      rw [List.length_append, hcode, sha256Size, Nat.add_sub_cancel]
    have hlong : ¬ (signed ++ k.code C signed).length < aesBlockSize + aesBlockSize + 32 := by
      rw [List.length_append, hlen, hcode, sha256Size]
      simp only [aesBlockSize] at hmod ⊢
      omega
    rw [decryptWithKeys, if_neg hk'.not_missing, if_neg hlong, hbody, List.take_left,
      List.drop_left, if_neg (by rw [hsame.code]; simp)]
    exact (Fallible.bind_eq_of_ok (hsame.cipher ▸ hb) _).trans hopen

/-- **A ciphertext with another code is rejected.** -/
theorem decryptWithKeys_of_code_ne (k : LinkKeys) (data : Bytes)
    (hcode : data.drop (data.length - 32) ≠ k.code C (data.take (data.length - 32))) :
    ∃ e, k.decryptWithKeys C data = .error e := by
  rw [decryptWithKeys]
  by_cases hmissing : k.Missing
  · exact ⟨_, if_pos hmissing⟩
  · rw [if_neg hmissing]
    by_cases hshort : data.length < aesBlockSize + aesBlockSize + 32
    · exact ⟨_, if_pos hshort⟩
    · exact ⟨_, (if_neg hshort).trans (if_pos hcode)⟩

end

end LinkKeys

/-! ## Everything that is encrypted is decrypted -/

/-- **Encryption round trips.**  A token and a payload of a link are decrypted to what they were
made of, and a payload has the length that is expected.  The routines in place give the blocks that
textbook chaining gives, also where the plaintext is put over the ciphertext.  What has another
authentication code is rejected. -/
theorem encryption_round_trips (C : AesHmac) (hC : C.Lawful) :
    (∀ key iv p : Bytes, key.length = 32 ∨ key.length = 64 → iv.length = aesBlockSize →
      ∃ token, C.encryptToken key iv p = .ok token ∧ C.decryptToken key token = .ok p) ∧
    (∀ (k k' : LinkKeys) (iv p dst : Bytes), k.Valid → k'.Valid → k.SameKeys C k' →
      iv.length = aesBlockSize →
      ∃ out, k.encryptWithKeysInto C iv p dst = .ok out ∧
        out.length = encryptedPayloadLen p.length ∧ k'.decryptWithKeys C out = .ok p) ∧
    (∀ (b : CipherBlock) (m : ℕ → UInt8) (iv buf : Slice) (n : ℕ), b.Aes →
      iv.length = aesBlockSize → buf.length = n * aesBlockSize →
      ¬ inexactOverlap iv.start buf.start aesBlockSize →
      ∃ m', encryptCBC (some b) m iv buf = .ok m' ∧
        Memory.blocks m' aesBlockSize buf.start n =
          Chaining.encrypt xorBytes b.encrypt (Memory.read m iv.start aesBlockSize)
            (Memory.blocks m aesBlockSize buf.start n)) ∧
    (∀ (b : CipherBlock) (m : ℕ → UInt8) (iv src dst : Slice) (n : ℕ), b.Aes →
      iv.length = aesBlockSize → src.length = n * aesBlockSize → dst.length = n * aesBlockSize →
      src = dst ∨ dst.start + dst.length ≤ src.start ∨ src.start + src.length ≤ dst.start →
      ∃ m', decryptCBC (some b) m iv src dst = .ok m' ∧
        Memory.blocks m' aesBlockSize dst.start n =
          Chaining.decrypt xorBytes b.decrypt (Memory.read m iv.start aesBlockSize)
            (Memory.blocks m aesBlockSize src.start n)) ∧
    (∀ key token : Bytes, token.drop (token.length - sha256Size) ≠
        C.hmac (key.take (key.length / 2)) (token.take (token.length - sha256Size)) →
      ∃ e, C.decryptToken key token = .error e) ∧
    (∀ (k : LinkKeys) (data : Bytes), data.drop (data.length - 32) ≠
        k.code C (data.take (data.length - 32)) →
      ∃ e, k.decryptWithKeys C data = .error e) := by
  refine ⟨fun key iv p hkey hiv => AesHmac.decryptToken_encryptToken hC hkey hiv p,
    fun k k' iv p dst hk hk' hsame hiv =>
      LinkKeys.decryptWithKeys_encryptWithKeysInto hC hk hk' hsame hiv p dst,
    fun b m iv buf n hb hiv hbuf hover => ?_,
    fun b m iv src dst n hb hiv hsrc hdst hplace => ?_,
    AesHmac.decryptToken_of_code_ne, LinkKeys.decryptWithKeys_of_code_ne⟩
  · rw [← hb.blockSize] at hiv hbuf hover ⊢
    obtain ⟨m', hm', hblocks, -⟩ := encryptCBC_eq hb.lawful m iv buf hiv hbuf hover
    exact ⟨m', hm', hblocks⟩
  · have hsize : b.blockSize ≤ 32 := by rw [hb.blockSize]; decide
    rw [← hb.blockSize] at hiv hsrc hdst ⊢
    obtain ⟨m', hm', hblocks, -⟩ :=
      decryptCBC_eq hb.lawful hsize m iv src dst hiv hsrc hdst hplace
    exact ⟨m', hm', hblocks⟩

/-- Primitives that can be computed: the cipher counts each byte up, and the code is the sum. -/
def countingAesHmac : AesHmac where
  aes _ := ⟨aesBlockSize, .map (· + 1), .map (· - 1)⟩
  hmac key message := .replicate sha256Size (key.sum + message.sum)

lemma countingAesHmac_lawful : countingAesHmac.Lawful where
  aes _ _ :=
    { lawful :=
        { blockSize_pos := Nat.succ_pos 15
          length_encrypt := fun _ hx => (List.length_map _).trans hx
          length_decrypt := fun _ hx => (List.length_map _).trans hx
          decrypt_encrypt := fun x _ => by simp [countingAesHmac, Function.comp_def] }
      blockSize := rfl }
  length_hmac _ _ := List.length_replicate

/-- A token without a plaintext, a payload of exactly one block, a ciphertext of two blocks that is
decrypted in place, and a token with another code. -/
theorem encryption_round_trips_counting :
    (∃ token, countingAesHmac.encryptToken (List.replicate 64 1) (List.replicate 16 2) [] =
        .ok token ∧ countingAesHmac.decryptToken (List.replicate 64 1) token = .ok []) ∧
    (∃ out, LinkKeys.encryptWithKeysInto countingAesHmac
          ⟨List.replicate 32 1, [3], none, none⟩ (List.replicate 16 2) (List.replicate 16 5) [7] =
        .ok out ∧ out.length = encryptedPayloadLen 16 ∧
      LinkKeys.decryptWithKeys countingAesHmac ⟨List.replicate 32 1, [3], none, none⟩ out =
        .ok (List.replicate 16 5)) ∧
    (∃ m', decryptCBC (some (countingAesHmac.aes [])) UInt8.ofNat ⟨0, 16⟩ ⟨16, 32⟩ ⟨16, 32⟩ =
        .ok m' ∧ Memory.blocks m' 16 16 2 =
      Chaining.decrypt xorBytes (List.map (· - 1)) (Memory.read UInt8.ofNat 0 16)
        (Memory.blocks UInt8.ofNat 16 16 2)) ∧
    (∃ e, countingAesHmac.decryptToken (List.replicate 64 1) (List.replicate 64 0) = .error e) := by
  obtain ⟨htoken, hlink, -, hdecrypt, hrejected, -⟩ :=
    encryption_round_trips countingAesHmac countingAesHmac_lawful
  refine ⟨htoken _ _ [] (.inr rfl) rfl, hlink _ _ _ _ _ ?_ ?_ ⟨rfl, rfl⟩ rfl,
    hdecrypt (countingAesHmac.aes []) _ _ _ _ 2 ?_ rfl rfl rfl (.inl rfl),
    hrejected _ _ (by decide +kernel)⟩
  · exact ⟨by simp, fun _ => .inr (.inr rfl), by simp, by simp⟩
  · exact ⟨by simp, fun _ => .inr (.inr rfl), by simp, by simp⟩
  · exact countingAesHmac_lawful.aes (.replicate 16 0) (.inl rfl)

end Reticulum

import Reticulum.Core.Fallible
import Reticulum.Cryptography.Cbc

/-!
# Tokens

A token (`pkg/cryptography/token.go`) is a vector, a ciphertext and an authentication code of both.
AES and HMAC are parameters: `AesHmac.Lawful` says that AES permutes the blocks of 16 bytes for each
key that it takes, and how long a code is.
-/

namespace Reticulum

structure AesHmac where
  aes : Bytes → CipherBlock
  hmac : Bytes → Bytes → Bytes

def AesKey (key : Bytes) : Prop := key.length = 16 ∨ key.length = 24 ∨ key.length = 32

instance instDecidableAesKey (key : Bytes) : Decidable (AesKey key) :=
  inferInstanceAs (Decidable (_ ∨ _))

def sha256Size : ℕ := 32

structure CipherBlock.Aes (b : CipherBlock) : Prop where
  lawful : b.Lawful
  blockSize : b.blockSize = aesBlockSize

structure AesHmac.Lawful (C : AesHmac) : Prop where
  aes : ∀ key, AesKey key → (C.aes key).Aes
  length_hmac : ∀ key message, (C.hmac key message).length = sha256Size

namespace AesHmac

variable (C : AesHmac)

section

variable (key : Bytes)

def newCipher : Except String CipherBlock :=
  if AesKey key then .ok (C.aes key)
  else .error ("crypto/aes: invalid key size " ++ toString key.length)

def validateHMAC (message messageHMAC : Bytes) : Bool :=
  decide (messageHMAC = C.hmac key message)

def splitTokenKey : Except String (Bytes × Bytes) :=
  if key.length = 32 then .ok (key.take 16, key.drop 16)
  else if key.length = 64 then .ok (key.take 32, key.drop 32)
  else .error "token key must be 32 or 64 bytes"

/-- The body that `encryptAESCBC` and `implEncryptAES256CBC` have in common.  The random vector is
an argument; the buffer is new. -/
def encryptBuffer (iv plaintext : Bytes) : Except String Bytes := do
  let block ← C.newCipher key
  let out ← fillCBC block iv plaintext fun _ => 0
  .ok (Memory.read out 0 (aesBlockSize + (plaintext.length + paddingLen plaintext.length)))

def encryptAES256CBC (iv plaintext : Bytes) : Except String Bytes :=
  if key.length ≠ 32 then .error "invalid key size: must be 32 bytes for AES-256"
  else C.encryptBuffer key iv plaintext

def encryptAESCBC (iv plaintext : Bytes) : Except String Bytes :=
  if key.length = 32 then C.encryptAES256CBC key iv plaintext
  else if key.length ≠ 16 then .error "invalid AES key size"
  else C.encryptBuffer key iv plaintext

def decryptBuffer (ciphertext : Bytes) : Except String Bytes := do
  let block ← C.newCipher key
  openCBC block ciphertext

def decryptAES256CBC (ciphertext : Bytes) : Except String Bytes :=
  if key.length ≠ 32 then .error "invalid key size: must be 32 bytes for AES-256"
  else C.decryptBuffer key ciphertext

def decryptAESCBC (ciphertext : Bytes) : Except String Bytes :=
  if key.length = 32 then C.decryptAES256CBC key ciphertext
  else if key.length ≠ 16 then .error "invalid AES key size"
  else C.decryptBuffer key ciphertext

def encryptToken (iv plaintext : Bytes) : Except String Bytes := do
  let keys ← splitTokenKey key
  let ct ← C.encryptAESCBC keys.2 iv plaintext
  .ok (ct ++ C.hmac keys.1 ct)

def decryptToken (token : Bytes) : Except String Bytes := do
  let keys ← splitTokenKey key
  if token.length < aesBlockSize + sha256Size then .error "token too short"
  else
    let mac := token.drop (token.length - sha256Size)
    let body := token.take (token.length - sha256Size)
    if C.validateHMAC keys.1 body mac then C.decryptAESCBC keys.2 body
    else .error "token HMAC was invalid"

end

section

variable {C} {key : Bytes}

lemma splitTokenKey_eq (h : key.length = 32 ∨ key.length = 64) :
    splitTokenKey key = .ok (key.take (key.length / 2), key.drop (key.length / 2)) ∧
      ((key.drop (key.length / 2)).length = 16 ∨ (key.drop (key.length / 2)).length = 32) := by
  obtain h | h := h
  · rw [splitTokenKey, if_pos h, List.length_drop, h]
    exact ⟨rfl, .inl rfl⟩
  · rw [splitTokenKey, if_neg (by omega), if_pos h, List.length_drop, h]
    exact ⟨rfl, .inr rfl⟩

lemma encryptAESCBC_eq (h : key.length = 16 ∨ key.length = 32) (iv p : Bytes) :
    C.encryptAESCBC key iv p = C.encryptBuffer key iv p := by
  obtain h | h := h
  · rw [encryptAESCBC, if_neg (by omega), if_neg (by omega)]
  · rw [encryptAESCBC, if_pos h, encryptAES256CBC, if_neg (by omega)]

lemma decryptAESCBC_eq (h : key.length = 16 ∨ key.length = 32) (c : Bytes) :
    C.decryptAESCBC key c = C.decryptBuffer key c := by
  obtain h | h := h
  · rw [decryptAESCBC, if_neg (by omega), if_neg (by omega)]
  · rw [decryptAESCBC, if_pos h, decryptAES256CBC, if_neg (by omega)]

lemma newCipher_of_aesKey (h : AesKey key) : C.newCipher key = .ok (C.aes key) :=
  if_pos h

lemma decryptBuffer_encryptBuffer (hC : C.Lawful) {iv : Bytes} (hkey : AesKey key)
    (hiv : iv.length = aesBlockSize) (p : Bytes) :
    ∃ ct, C.encryptBuffer key iv p = .ok ct ∧ aesBlockSize ≤ ct.length ∧
      C.decryptBuffer key ct = .ok p := by
  obtain ⟨m, hfill, hopen⟩ :=
    openCBC_fillCBC (hC.aes key hkey).lawful (hC.aes key hkey).blockSize hiv p fun _ => 0
  have hopen' : C.decryptBuffer key
      (Memory.read m 0 (aesBlockSize + (p.length + paddingLen p.length))) = .ok p := by
    exact (Fallible.bind_eq_of_ok (newCipher_of_aesKey hkey) _).trans hopen
  refine ⟨Memory.read m 0 (aesBlockSize + (p.length + paddingLen p.length)), ?_, ?_, hopen'⟩
  · exact Fallible.bind_eq_ok.mpr
      ⟨_, newCipher_of_aesKey hkey, Fallible.bind_eq_ok.mpr ⟨m, hfill, rfl⟩⟩
  · rw [Memory.length_read]
    exact Nat.le_add_right _ _

/-- **What was made a token comes back.** -/
theorem decryptToken_encryptToken (hC : C.Lawful) {iv : Bytes}
    (hkey : key.length = 32 ∨ key.length = 64) (hiv : iv.length = aesBlockSize) (p : Bytes) :
    ∃ token, C.encryptToken key iv p = .ok token ∧ C.decryptToken key token = .ok p := by
  obtain ⟨hsplit, haes⟩ := splitTokenKey_eq hkey
  generalize key.take (key.length / 2) = hmacKey at hsplit
  obtain ⟨ct, henc, hlen, hdec⟩ :=
    decryptBuffer_encryptBuffer hC (haes.imp_right .inr) hiv p
  have hmac := hC.length_hmac hmacKey ct
  have hbody : (ct ++ C.hmac hmacKey ct).length - sha256Size = ct.length := by
    rw [List.length_append, hmac, Nat.add_sub_cancel]
  refine ⟨ct ++ C.hmac hmacKey ct, ?_, ?_⟩
  · exact Fallible.bind_eq_ok.mpr ⟨_, hsplit, Fallible.bind_eq_ok.mpr
      ⟨ct, (encryptAESCBC_eq haes iv p).trans henc, rfl⟩⟩
  · refine (Fallible.bind_eq_of_ok hsplit _).trans ?_
    rw [if_neg (by rw [List.length_append, hmac]; omega), hbody, List.drop_left, List.take_left,
      if_pos (by simp [validateHMAC]), decryptAESCBC_eq haes, hdec]

/-- **A token with another code is rejected.** -/
theorem decryptToken_of_code_ne (key token : Bytes)
    (hcode : token.drop (token.length - sha256Size) ≠
      C.hmac (key.take (key.length / 2)) (token.take (token.length - sha256Size))) :
    ∃ e, C.decryptToken key token = .error e := by
  by_cases hkey : key.length = 32 ∨ key.length = 64
  · rw [decryptToken, Fallible.bind_eq_of_ok (splitTokenKey_eq hkey).1]
    by_cases hshort : token.length < aesBlockSize + sha256Size
    · exact ⟨_, if_pos hshort⟩
    · exact ⟨_, (if_neg hshort).trans (if_neg (by simpa [validateHMAC] using hcode))⟩
  · rw [not_or] at hkey
    rw [decryptToken, splitTokenKey, if_neg hkey.1, if_neg hkey.2]
    exact ⟨_, rfl⟩

end

end AesHmac

end Reticulum

import Mathlib.Algebra.Order.Group.Int
import Reticulum.Core.Fallible
import Reticulum.Identity.KnownRatchets

/-!
# Ratchets of a destination

A destination that has **ratchets** enabled makes a new key pair from time to time, keeps the last
ones in memory and in a file, and announces the newest.  `Decrypt` tries the ratchets in memory, and
if none of them opens the token it takes the list from the file and tries again
(`pkg/destination/destination.go`, `pkg/identity/identity.go`); a ratchet that was not persisted is
gone then.  The others stay usable: **`RatchetDest.usable_of_allowed`**.

The destination is of the type SINGLE, the only one that can be announced.  The primitives are
parameters (`TokenCrypto`).
-/

namespace Reticulum

open Identity.Constants List

/-! ## Tokens -/

/-- The primitives.  Salt and context of the identity are part of `deriveIdentityKeyMaterial`, and
the initialisation vector is an argument. -/
structure TokenCrypto where
  publicKeyFromPrivate : Bytes → Except String Bytes
  deriveSharedSecret : Bytes → Bytes → Except String Bytes
  deriveIdentityKeyMaterial : Bytes → Except String Bytes
  computeHMAC : Bytes → Bytes → Bytes
  validateHMAC : Bytes → Bytes → Bytes → Bool
  encryptAES256CBC : Bytes → Bytes → Bytes → Except String Bytes
  decryptAES256CBC : Bytes → Bytes → Except String Bytes

structure TokenCrypto.Correct (C : TokenCrypto) : Prop where
  publicKey_ok (r : Bytes) (h : r.length = ratchetSize) : ∃ P, C.publicKeyFromPrivate r = .ok P
  length_publicKey {r P : Bytes} (h : C.publicKeyFromPrivate r = .ok P) : P.length = 32
  agreement {a b A B : Bytes} (ha : C.publicKeyFromPrivate a = .ok A)
    (hb : C.publicKeyFromPrivate b = .ok B) : C.deriveSharedSecret a B = C.deriveSharedSecret b A
  validate (key message : Bytes) : C.validateHMAC key message (C.computeHMAC key message) = true
  length_hmac (key message : Bytes) : (C.computeHMAC key message).length = 32
  decrypt_encrypt {key iv plaintext c : Bytes} (h : C.encryptAES256CBC key iv plaintext = .ok c) :
    C.decryptAES256CBC key c = .ok plaintext
  length_encrypt {key iv plaintext c : Bytes} (h : C.encryptAES256CBC key iv plaintext = .ok c) :
    32 ≤ c.length
  /-- who can verify the code of a token holds the private key it was encrypted to -/
  authentic {eph E B b s k s' k' m : Bytes} (heph : C.publicKeyFromPrivate eph = .ok E)
    (hs : C.deriveSharedSecret eph B = .ok s) (hk : C.deriveIdentityKeyMaterial s = .ok k)
    (hs' : C.deriveSharedSecret b E = .ok s') (hk' : C.deriveIdentityKeyMaterial s' = .ok k')
    (h : C.validateHMAC (k'.take 32) m (C.computeHMAC (k.take 32) m) = true) :
    C.publicKeyFromPrivate b = .ok B

structure TokenIdentity where
  publicKey : Bytes
  privateKey : Option Bytes

variable {i : TokenIdentity} {r : Bytes}

namespace TokenIdentity

variable (C : TokenCrypto)

def encrypt (i : TokenIdentity) (ephemeralPrivKey ephemeralPubKey iv plaintext ratchet : Bytes) :
    Except String Bytes := do
  let targetKey := if 0 < ratchet.length then ratchet else i.publicKey
  let sharedSecret ← C.deriveSharedSecret ephemeralPrivKey targetKey
  let key ← C.deriveIdentityKeyMaterial sharedSecret
  let ciphertext ← C.encryptAES256CBC ((key.drop 32).take 32) iv plaintext
  .ok (ephemeralPubKey ++ ciphertext ++ C.computeHMAC (key.take 32) ciphertext)

def tryRatchetDecryption (peerPubBytes ciphertext mac ratchet : Bytes) : Except String Bytes := do
  let _ ← C.publicKeyFromPrivate ratchet
  let sharedSecret ← C.deriveSharedSecret ratchet peerPubBytes
  let key ← C.deriveIdentityKeyMaterial sharedSecret
  if ¬ C.validateHMAC (key.take 32) ciphertext mac then .error "invalid HMAC"
  else C.decryptAES256CBC ((key.drop 32).take 32) ciphertext

def tryRatchets (peerPubBytes ciphertext mac : Bytes) (ratchets : List Bytes) : Option Bytes :=
  ratchets.findSome? fun ratchet =>
    (tryRatchetDecryption C peerPubBytes ciphertext mac ratchet).toOption

def decryptOwn (privateKey peerPubBytes ciphertext mac : Bytes) : Except String Bytes := do
  let sharedKey ← (C.deriveSharedSecret privateKey peerPubBytes).mapError
    ("failed to generate shared key: " ++ ·)
  let derivedKey ← (C.deriveIdentityKeyMaterial sharedKey).mapError ("failed to derive key: " ++ ·)
  if ¬ C.validateHMAC (derivedKey.take 32) ciphertext mac then .error "invalid HMAC"
  else C.decryptAES256CBC ((derivedKey.drop 32).take 32) ciphertext

def decrypt (i : TokenIdentity) (admitted : Bool) (ciphertextToken : Bytes)
    (ratchets : List Bytes) (enforceRatchets : Bool) : Except String Bytes :=
  match i.privateKey with
  | none => .error "decryption failed because identity does not hold a private key"
  | some privateKey =>
    if ¬ admitted then .error "dos_protection refused crypto"
    else if ciphertextToken.length ≤ 32 then
      .error "decryption failed because the token size was invalid"
    else if ciphertextToken.length < 32 + 32 + 32 then .error "token too short"
    else
      let peerPubBytes := ciphertextToken.take 32
      let ciphertext := (ciphertextToken.take (ciphertextToken.length - 32)).drop 32
      let mac := ciphertextToken.drop (ciphertextToken.length - 32)
      match tryRatchets C peerPubBytes ciphertext mac ratchets with
      | some plaintext => .ok plaintext
      | none =>
        if enforceRatchets then .error "decryption with ratchet enforcement failed"
        else decryptOwn C privateKey peerPubBytes ciphertext mac

variable {C} {E plaintext eph iv : Bytes}

lemma encrypt_eq_ok {ratchet token : Bytes} :
    i.encrypt C eph E iv plaintext ratchet = .ok token ↔
      ∃ s, C.deriveSharedSecret eph (if 0 < ratchet.length then ratchet else i.publicKey) = .ok s ∧
        ∃ k, C.deriveIdentityKeyMaterial s = .ok k ∧
          ∃ c, C.encryptAES256CBC ((k.drop 32).take 32) iv plaintext = .ok c ∧
            E ++ c ++ C.computeHMAC (k.take 32) c = token := by
  simp only [encrypt, Fallible.bind_eq_ok, Except.ok.injEq]

lemma tryRatchetDecryption_eq_ok {c mac : Bytes} :
    tryRatchetDecryption C E c mac r = .ok plaintext ↔
      ∃ P, C.publicKeyFromPrivate r = .ok P ∧ ∃ s, C.deriveSharedSecret r E = .ok s ∧
        ∃ k, C.deriveIdentityKeyMaterial s = .ok k ∧ C.validateHMAC (k.take 32) c mac ∧
          C.decryptAES256CBC ((k.drop 32).take 32) c = .ok plaintext := by
  simp [tryRatchetDecryption, Fallible.bind_eq_ok, Fallible.ite_error_eq_ok]

section

variable {B s k c : Bytes} (hC : C.Correct) (heph : C.publicKeyFromPrivate eph = .ok E)
  (hs : C.deriveSharedSecret eph B = .ok s) (hk : C.deriveIdentityKeyMaterial s = .ok k)
  (hc : C.encryptAES256CBC ((k.drop 32).take 32) iv plaintext = .ok c)
include hC heph hs hk hc

lemma tryRatchetDecryption_encrypt (r p : Bytes) :
    tryRatchetDecryption C E c (C.computeHMAC (k.take 32) c) r = .ok p ↔
      C.publicKeyFromPrivate r = .ok B ∧ p = plaintext := by
  rw [tryRatchetDecryption_eq_ok]
  constructor
  · rintro ⟨P, -, s', hs', k', hk', hmac, hdec⟩
    have hr : C.publicKeyFromPrivate r = .ok B := hC.authentic heph hs hk hs' hk' hmac
    -- both sides have agreed on one secret, so that the keys are the same
    rw [← hC.agreement heph hr, hs] at hs'
    cases hs'
    rw [hk] at hk'
    cases hk'
    rw [hC.decrypt_encrypt hc] at hdec
    cases hdec
    exact ⟨hr, rfl⟩
  · rintro ⟨hr, rfl⟩
    exact ⟨B, hr, s, (hC.agreement heph hr).symm.trans hs, k, hk, hC.validate _ _,
      hC.decrypt_encrypt hc⟩

/-- **What the ratchets make of a token** for the public key `B`. -/
lemma tryRatchets_encrypt (rs : List Bytes) :
    tryRatchets C E c (C.computeHMAC (k.take 32) c) rs =
      if ∃ r ∈ rs, C.publicKeyFromPrivate r = .ok B then some plaintext else none := by
  have htry := tryRatchetDecryption_encrypt hC heph hs hk hc
  induction rs with
  | nil => simp [tryRatchets]
  | cons r rs ih =>
    rw [tryRatchets] at ih
    rw [tryRatchets, findSome?_cons]
    cases hr : tryRatchetDecryption C E c (C.computeHMAC (k.take 32) c) r with
    | ok p =>
      obtain ⟨hB, rfl⟩ := (htry r p).1 hr
      rw [if_pos ⟨r, mem_cons_self, hB⟩]
      rfl
    | error err =>
      have hB : C.publicKeyFromPrivate r ≠ .ok B := by
        intro hB
        rw [(htry r plaintext).2 ⟨hB, rfl⟩] at hr
        cases hr
      rw [ih]
      simp only [exists_mem_cons_iff, hB, false_or]
      rfl

end

/-- **`Decrypt` of a token that was encrypted to `B`.**  A ratchet with the public key `B` gives the
plaintext; without one the token is refused if ratchets are enforced. -/
lemma decrypt_encrypt (hC : C.Correct) {ratchet B token : Bytes}
    (heph : C.publicKeyFromPrivate eph = .ok E)
    (hB : (if 0 < ratchet.length then ratchet else i.publicKey) = B)
    (htoken : i.encrypt C eph E iv plaintext ratchet = .ok token) (rs : List Bytes) :
    ((∃ r ∈ rs, C.publicKeyFromPrivate r = .ok B) → i.privateKey.isSome → ∀ enforce,
      i.decrypt C true token rs enforce = .ok plaintext) ∧
    ((¬ ∃ r ∈ rs, C.publicKeyFromPrivate r = .ok B) → ∀ admitted,
      ∃ err, i.decrypt C admitted token rs true = .error err) := by
  obtain ⟨s, hs, k, hk, c, hc, rfl⟩ := encrypt_eq_ok.1 htoken
  rw [hB] at hs
  have hE : E.length = 32 := hC.length_publicKey heph
  have hmac := hC.length_hmac (k.take 32) c
  have hlen : (E ++ c ++ C.computeHMAC (k.take 32) c).length = 32 + c.length + 32 := by
    rw [length_append, length_append, hE, hmac]
  have hc32 := hC.length_encrypt hc
  have hpeer : (E ++ c ++ C.computeHMAC (k.take 32) c).take 32 = E := by
    rw [append_assoc, ← hE, take_left]
  have hbody : ((E ++ c ++ C.computeHMAC (k.take 32) c).take (32 + c.length + 32 - 32)).drop 32 =
      c := by
    rw [Nat.add_sub_cancel, ← hE, ← length_append, take_left, drop_left]
  have htail : (E ++ c ++ C.computeHMAC (k.take 32) c).drop (32 + c.length + 32 - 32) =
      C.computeHMAC (k.take 32) c := by
    rw [Nat.add_sub_cancel, ← hE, ← length_append, drop_left]
  have htry := tryRatchets_encrypt hC heph hs hk hc rs
  have hshort : ¬ 32 + c.length + 32 ≤ 32 := by omega
  have hshort' : ¬ 32 + c.length + 32 < 32 + 32 + 32 := by omega
  constructor
  · intro hr hi enforce
    obtain ⟨prv, hprv⟩ := Option.isSome_iff_exists.1 hi
    rw [if_pos hr] at htry
    simp only [decrypt, hprv, hlen, hpeer, hbody, htail, htry, hshort, hshort', not_true_eq_false,
      if_false]
  · intro hr admitted
    rw [if_neg hr] at htry
    cases hprv : i.privateKey with
    | none => exact ⟨_, by simp only [decrypt, hprv]; rfl⟩
    | some prv =>
      cases admitted with
      | false => exact ⟨_, by simp only [decrypt, hprv]; rfl⟩
      | true =>
        refine ⟨"decryption with ratchet enforcement failed", ?_⟩
        simp only [decrypt, hprv, hlen, hpeer, hbody, htail, htry, hshort, hshort',
          not_true_eq_false, if_false, if_true]

end TokenIdentity

/-! ## The destination -/

def TokenCrypto.publicKey (C : TokenCrypto) (r : Bytes) : Option Bytes :=
  (C.publicKeyFromPrivate r).toOption

lemma TokenCrypto.mem_publicKey {C : TokenCrypto} {P : Bytes} :
    P ∈ C.publicKey r ↔ C.publicKeyFromPrivate r = .ok P := by
  rw [publicKey]
  cases C.publicKeyFromPrivate r with
  | ok Q | error err => simp [Except.toOption]

def TokenCrypto.Holds (C : TokenCrypto) (rs : List Bytes) (P : Bytes) : Prop :=
  ∃ r ∈ rs, P ∈ C.publicKey r

/-- `count_pos` is what `SetRetainedRatchets` checks.  In `file` is what stands in the file at
`ratchetPath`, and in `announced` are the public keys that went out, the last one first. -/
structure RatchetDest where
  ratchetsEnabled : Bool
  ratchetPath : String
  file : Option (List Bytes)
  ratchets : List Bytes
  latestRatchetTime : Option ℤ
  ratchetCount : ℕ
  count_pos : 0 < ratchetCount
  ratchetInterval : ℕ
  enforceRatchets : Bool
  announced : List Bytes

/-- How a rotation goes: the time, the ratchet that is made, and the error of writing the file. -/
structure RotateIO where
  now : ℤ
  generated : Except String {r : Bytes // r.length = ratchetSize}
  persistErr : Option String

/-- How reading the file goes.  Memory for the ratchets can run out after the first `n`. -/
inductive ReloadIO where
  | read
  | unreadable (err : String)
  | outOfMemory (n : ℕ) (err : String)

def ReloadIO.complete : ReloadIO → Bool
  | .outOfMemory _ _ => false
  | _ => true

/-- Whether `AdmitCrypto` lets the two attempts pass, and the reload between them. -/
structure DecryptIO where
  admitted : Bool
  reload : ReloadIO
  admittedAgain : Bool

/-- What happens to the destination.  `Decrypt` gives up its lock before it reloads the ratchets:
the event `reload` is the rest of a call that another one has overtaken. -/
inductive RatchetStep where
  | rotate (io : RotateIO)
  | announce (io : RotateIO) (sent : Bool)
  | decrypt (token : Bytes) (io : DecryptIO)
  | reload (io : ReloadIO)
  | enforce

namespace RatchetDest

variable (C : TokenCrypto)

section

variable (s : RatchetDest)

def persistRatchets (persistErr : Option String) : RatchetDest × Option String :=
  if ¬ s.ratchetsEnabled then (s, some "ratchets not enabled")
  else if s.ratchetPath = "" then (s, none)
  else
    match persistErr with
    | some err => (s, some err)
    | none => ({ s with file := some s.ratchets }, none)

def reloadRatchets (io : ReloadIO) : RatchetDest × Option String :=
  if s.ratchetPath = "" then (s, none)
  else
    match s.file, io with
    | none, _ => ({ s with ratchets := [] }, none)
    | some raw, .read => ({ s with ratchets := raw }, none)
    | some _, .unreadable err => (s, some err)
    | some raw, .outOfMemory n err =>
      ({ s with ratchets := raw.take n }, if n < raw.length then some err else none)

def due (now : ℤ) : Bool :=
  match s.latestRatchetTime with
  | none => true
  | some t => ¬ now < t + s.ratchetInterval * 1000000000

def cleanRatchets : RatchetDest :=
  { s with ratchets := s.ratchets.take s.ratchetCount }

def rotateRatchets (io : RotateIO) : RatchetDest × Option String :=
  if ¬ s.ratchetsEnabled then (s, some "ratchets not enabled")
  else if ¬ s.due io.now then (s, none)
  else
    match io.generated with
    | .error err => (s, some err)
    | .ok r =>
      let s := { s with ratchets := r.1 :: s.ratchets, latestRatchetTime := some io.now }
      s.cleanRatchets.persistRatchets io.persistErr

def currentRatchetPublic : Option Bytes :=
  if ¬ s.ratchetsEnabled then none
  else s.ratchets.head?.bind fun r => if r.length ≠ ratchetSize then none else C.publicKey r

def record (P : Bytes) : RatchetDest :=
  { s with announced := P :: s.announced.erase P }

/-- `Announce`, once it was not refused; `sent` says whether an interface has taken the packet. -/
def announce (io : RotateIO) (sent : Bool) : RatchetDest × Option String :=
  if ¬ s.ratchetsEnabled then (s, none)
  else
    match s.rotateRatchets io with
    | (s, some err) => (s, some err)
    | (s, none) =>
      match s.currentRatchetPublic C with
      | none => (s, none)
      | some P => (if sent then s.record P else s, none)

def getRatchets : List Bytes := if ¬ s.ratchetsEnabled then [] else s.ratchets

def decrypt (i : TokenIdentity) (s : RatchetDest) (ciphertext : Bytes) (io : DecryptIO) :
    RatchetDest × Except String Bytes :=
  if s.getRatchets.length = 0 then
    (s, i.decrypt C io.admitted ciphertext [] s.enforceRatchets)
  else
    match i.decrypt C io.admitted ciphertext s.getRatchets s.enforceRatchets with
    | .ok plaintext => (s, .ok plaintext)
    | .error err =>
      match s.reloadRatchets io.reload with
      | (s', some _) => (s', .error err)
      | (s', none) =>
        (s', i.decrypt C io.admittedAgain ciphertext s'.getRatchets s.enforceRatchets)

def step (i : TokenIdentity) (s : RatchetDest) : RatchetStep → RatchetDest
  | .rotate io => (s.rotateRatchets io).1
  | .announce io sent => (s.announce C io sent).1
  | .decrypt token io => (s.decrypt C i token io).1
  | .reload io => (s.reloadRatchets io).1
  | .enforce => { s with enforceRatchets := true }

/-! ## What is to hold -/

/-- Each of the last `ratchetCount` announced ratchets can decrypt what is encrypted to it, if
`AdmitCrypto` does not stop it. -/
def Usable (i : TokenIdentity) (s : RatchetDest) : Prop :=
  ∀ P ∈ s.announced.take s.ratchetCount, ∀ eph E iv plaintext token : Bytes,
    C.publicKeyFromPrivate eph = .ok E → i.encrypt C eph E iv plaintext P = .ok token →
    ∀ io : DecryptIO, io.admitted = true → (s.decrypt C i token io).2 = .ok plaintext

/-- With ratchets enforced, a token that was encrypted to the key of the identity, which is not that
of a ratchet, is refused. -/
def Enforcing (i : TokenIdentity) (s : RatchetDest) : Prop :=
  s.enforceRatchets = true → ¬ C.Holds s.ratchets i.publicKey →
    ¬ C.Holds (s.file.getD []) i.publicKey → ∀ eph E iv plaintext token : Bytes,
    C.publicKeyFromPrivate eph = .ok E → i.encrypt C eph E iv plaintext [] = .ok token →
    ∀ io : DecryptIO, ∃ err, (s.decrypt C i token io).2 = .error err

/-- None of the last `k` announced ratchets is among those that a rotation pushes out. -/
def Spares (k : ℕ) : Prop :=
  ∀ r ∈ s.ratchets.drop (s.ratchetCount - 1), ∀ P ∈ C.publicKey r, P ∉ s.announced.take k

def Persists (io : RotateIO) : Prop := s.ratchetPath = "" ∨ io.persistErr = none

/-- **The condition on a step.**  A rotation pushes out no ratchet that is to be kept, an announce
without a rotation carries a ratchet that is in the file, and a reload is not cut short. -/
def Allowed : RatchetStep → Prop
  | .rotate io => s.due io.now = true → s.Spares C s.ratchetCount
  | .announce io sent =>
    if s.due io.now then
      ∀ r ∈ io.generated.toOption, (∀ P ∈ C.publicKey r.1, P ∉ s.announced) ∧
        (sent = true ∧ s.Persists io ∧ s.Spares C (s.ratchetCount - 1) ∨ s.Spares C s.ratchetCount)
    else sent = true → s.ratchetPath ≠ "" → ∀ r ∈ s.ratchets.head?, r ∈ s.file.getD []
  | .decrypt _ io => io.reload.complete
  | .reload io => io.complete
  | .enforce => True

instance decidableSpares (k : ℕ) : Decidable (s.Spares C k) := by
  unfold Spares
  infer_instance

instance decidablePersists (io : RotateIO) : Decidable (s.Persists io) :=
  inferInstanceAs (Decidable (_ ∨ _))

instance decidableAllowed (e : RatchetStep) : Decidable (s.Allowed C e) := by
  cases e <;> unfold Allowed <;> infer_instance

end

variable {C} {s : RatchetDest} {P : Bytes}

/-- The ratchets announced last are in memory, and in the file if there is one. -/
structure Kept (C : TokenCrypto) (s : RatchetDest) : Prop where
  held : ∀ P ∈ s.announced.take s.ratchetCount, C.Holds s.ratchets P
  stored : s.ratchetPath ≠ "" → ∀ P ∈ s.announced.take s.ratchetCount, C.Holds (s.file.getD []) P
  enabled : s.announced ≠ [] → s.ratchetsEnabled = true

/-! ## Rotations -/

def pushed (s : RatchetDest) (r : Bytes) (now : ℤ) : RatchetDest :=
  { s with ratchets := (r :: s.ratchets).take s.ratchetCount, latestRatchetTime := some now }

def written (s : RatchetDest) : RatchetDest :=
  { s with file := if s.ratchetPath = "" then s.file else some s.ratchets }

/-- **What a rotation does**: nothing; or a ratchet comes in, and the file is written or not. -/
lemma rotateRatchets_cases (s : RatchetDest) (io : RotateIO) :
    (∃ err, s.rotateRatchets io = (s, err) ∧
      (err = none → s.ratchetsEnabled ∧ s.due io.now = false)) ∨
    (∃ r, s.ratchetsEnabled ∧ s.due io.now ∧ r ∈ io.generated.toOption ∧
      (s.Persists io ∧ s.rotateRatchets io = ((s.pushed r.1 io.now).written, none) ∨
        ¬ s.Persists io ∧ ∃ err, s.rotateRatchets io = (s.pushed r.1 io.now, some err))) := by
  rw [rotateRatchets]
  cases hen : s.ratchetsEnabled with
  | false =>
    left
    exact ⟨_, rfl, nofun⟩
  | true =>
    cases hdue : s.due io.now with
    | false =>
      left
      exact ⟨_, rfl, fun _ => ⟨rfl, rfl⟩⟩
    | true =>
      cases hgen : io.generated with
      | error err =>
        left
        exact ⟨_, rfl, nofun⟩
      | ok r =>
        right
        refine ⟨r, rfl, rfl, rfl, ?_⟩
        simp only [persistRatchets, cleanRatchets, hen, Persists, written, pushed]
        by_cases hpath : s.ratchetPath = ""
        · simp [hpath]
        · cases hperr : io.persistErr with
          | none =>
            simp [hpath]
          | some err =>
            right
            exact ⟨by simp [hpath], err, by simp [hpath]⟩

lemma pushed_ratchets (s : RatchetDest) (r : Bytes) (now : ℤ) :
    (s.pushed r now).ratchets = r :: s.ratchets.take (s.ratchetCount - 1) := by
  obtain ⟨n, hn⟩ := Nat.exists_eq_succ_of_ne_zero s.count_pos.ne'
  simp [pushed, hn]

lemma Spares.holds_pushed {k : ℕ} (h : s.Spares C k) (hP : P ∈ s.announced.take k)
    (hold : C.Holds s.ratchets P) (r : Bytes) (now : ℤ) : C.Holds (s.pushed r now).ratchets P := by
  obtain ⟨x, hx, hxP⟩ := hold
  rw [← take_append_drop (s.ratchetCount - 1) s.ratchets, mem_append] at hx
  rcases hx with hx | hx
  · refine ⟨x, ?_, hxP⟩
    rw [pushed_ratchets]
    exact mem_cons_of_mem r hx
  · exact absurd hP (h x hx P hxP)

lemma Kept.pushed (hs : Kept C s) (h : s.Spares C s.ratchetCount) (r : Bytes) (now : ℤ) :
    Kept C (s.pushed r now) := { hs with
  held := fun P hP => h.holds_pushed hP (hs.held P hP) r now }

lemma Kept.written (held : ∀ P ∈ s.announced.take s.ratchetCount, C.Holds s.ratchets P)
    (enabled : s.announced ≠ [] → s.ratchetsEnabled) : Kept C s.written := by
  refine ⟨held, fun hpath => ?_, enabled⟩
  have hpath : s.ratchetPath ≠ "" := hpath
  simp only [RatchetDest.written, if_neg hpath]
  exact held

lemma Kept.rotate (hs : Kept C s) {io : RotateIO}
    (h : s.due io.now → s.Spares C s.ratchetCount) : Kept C (s.rotateRatchets io).1 := by
  rcases rotateRatchets_cases s io with ⟨err, heq, -⟩ | ⟨r, -, hdue, -, ⟨-, heq⟩ | ⟨-, err, heq⟩⟩
  · rw [heq]
    exact hs
  · rw [heq]
    have hp := hs.pushed (h hdue) r.1 io.now
    exact .written hp.held hp.enabled
  · rw [heq]
    exact hs.pushed (h hdue) r.1 io.now

/-! ## Announces -/

lemma mem_take_cons_erase {Q : Bytes} {l : List Bytes} {n : ℕ} (h : Q ∈ (P :: l.erase P).take n) :
    Q = P ∨ Q ∈ l.take n := by
  cases n with
  | zero => simp at h
  | succ n =>
    rw [take_succ_cons, mem_cons] at h
    rcases h with rfl | h
    · exact .inl rfl
    · right
      induction l generalizing n with
      | nil => simp at h
      | cons a l ih =>
        rw [take_succ_cons, mem_cons]
        rcases eq_or_ne a P with rfl | ha
        · rw [erase_cons_head] at h
          exact .inr h
        · rw [erase_cons_tail (by simpa using ha)] at h
          cases n with
          | zero => simp at h
          | succ n =>
            rw [take_succ_cons, mem_cons] at h
            exact h.imp_right (ih n)

lemma currentRatchetPublic_eq_some : s.currentRatchetPublic C = some P ↔
      s.ratchetsEnabled ∧ ∃ r ∈ s.ratchets.head?, r.length = ratchetSize ∧ P ∈ C.publicKey r := by
  rw [currentRatchetPublic]
  cases s.ratchetsEnabled with
  | false => simp
  | true => simp [Option.bind_eq_some_iff]

lemma Kept.record (hs : Kept C s) (hen : s.ratchetsEnabled) (hheld : C.Holds s.ratchets P)
    (hstored : s.ratchetPath ≠ "" → C.Holds (s.file.getD []) P) : Kept C (s.record P) where
  held Q hQ := by
    rcases mem_take_cons_erase hQ with rfl | hQ
    · exact hheld
    · exact hs.held Q hQ
  stored hpath Q hQ := by
    rcases mem_take_cons_erase hQ with rfl | hQ
    · exact hstored hpath
    · exact hs.stored hpath Q hQ
  enabled _ := hen

lemma Spares.mono {k l : ℕ} (hkl : k ≤ l) (h : s.Spares C l) : s.Spares C k :=
  fun r hr P hP hmem => h r hr P hP (take_subset_take_left _ hkl hmem)

lemma Kept.record_pushed (hs : Kept C s) (hen : s.ratchetsEnabled)
    (hP : P ∈ C.publicKey r) (hfresh : P ∉ s.announced) (h : s.Spares C (s.ratchetCount - 1))
    (now : ℤ) : Kept C ((s.pushed r now).written.record P) := by
  have hcomm : (s.pushed r now).written.record P = ((s.pushed r now).record P).written := rfl
  rw [hcomm]
  refine .written (fun Q hQ => ?_) fun _ => hen
  obtain ⟨n, hn⟩ := Nat.exists_eq_succ_of_ne_zero s.count_pos.ne'
  have hQ' : Q ∈ (P :: s.announced.erase P).take s.ratchetCount := hQ
  rw [erase_of_not_mem hfresh, hn, take_succ_cons, mem_cons] at hQ'
  rcases hQ' with rfl | hQ'
  · exact ⟨r, by rw [RatchetDest.record, pushed_ratchets]; exact mem_cons_self, hP⟩
  · rw [hn] at h
    have hle : n ≤ s.ratchetCount := by omega
    exact h.holds_pushed hQ' (hs.held Q (take_subset_take_left _ hle hQ')) r now

lemma Kept.announce (hC : C.Correct) (hs : Kept C s) {io : RotateIO} {sent : Bool}
    (h : s.Allowed C (.announce io sent)) : Kept C (s.announce C io sent).1 := by
  cases hen : s.ratchetsEnabled with
  | false =>
    simp only [RatchetDest.announce, hen]
    exact hs
  | true =>
    simp only [RatchetDest.announce, hen]
    rcases rotateRatchets_cases s io with ⟨err, heq, hnone⟩ | ⟨r, -, hdue, hgen, hcases⟩
    · rw [heq]
      cases err with
      | some err => exact hs
      | none =>
        -- there is no rotation, and the newest ratchet is announced once more
        simp only [Allowed, (hnone rfl).2] at h
        cases hcur : s.currentRatchetPublic C with
        | none =>
          simp only [hcur]
          exact hs
        | some P =>
          simp only [hcur]
          obtain ⟨-, r, hr, -, hP⟩ := currentRatchetPublic_eq_some.1 hcur
          cases sent with
          | false => exact hs
          | true =>
            exact hs.record hen ⟨r, mem_of_mem_head? hr, hP⟩ fun hpath =>
              ⟨r, h rfl hpath r hr, hP⟩
    · simp only [Allowed, hdue] at h
      obtain ⟨hfresh, hspares⟩ := h r hgen
      rcases hcases with ⟨-, heq⟩ | ⟨hnot, err, heq⟩
      · rw [heq]
        obtain ⟨P, hP⟩ := hC.publicKey_ok r.1 r.2
        have hP := TokenCrypto.mem_publicKey.2 hP
        have hcur : (s.pushed r.1 io.now).written.currentRatchetPublic C = some P := by
          refine currentRatchetPublic_eq_some.2 ⟨hen, r.1, ?_, r.2, hP⟩
          simp [RatchetDest.written, pushed_ratchets]
        simp only [hcur]
        cases sent with
        | false =>
          have hp := hs.pushed (hspares.resolve_left nofun) r.1 io.now
          exact .written hp.held hp.enabled
        | true =>
          have hspares : s.Spares C (s.ratchetCount - 1) := by
            rcases hspares with ⟨-, -, hspares⟩ | hspares
            · exact hspares
            · exact hspares.mono (Nat.sub_le _ _)
          exact hs.record_pushed hen hP (hfresh P hP) hspares io.now
      · rw [heq]
        exact hs.pushed (hspares.resolve_left fun h => hnot h.2.1) r.1 io.now

/-! ## Reloads -/

def loaded (s : RatchetDest) (n : ℕ) : RatchetDest :=
  { s with ratchets := (s.file.getD []).take n }

/-- **What a reload does**: nothing, or the first ratchets of the file come in place of the others,
which are all of them if the reload was complete. -/
lemma reloadRatchets_cases (s : RatchetDest) (io : ReloadIO) :
    (∃ err, s.reloadRatchets io = (s, err)) ∨
    (∃ n err, s.ratchetPath ≠ "" ∧ s.reloadRatchets io = (s.loaded n, err) ∧
      (io.complete → (s.file.getD []).take n = s.file.getD [])) := by
  by_cases hpath : s.ratchetPath = ""
  · left
    exact ⟨none, by simp [reloadRatchets, if_pos hpath]⟩
  · cases hfile : s.file with
    | none =>
      right
      exact ⟨0, none, hpath, by simp only [reloadRatchets, loaded, if_neg hpath, hfile]; rfl,
        fun _ => rfl⟩
    | some raw =>
      have hall : raw.take raw.length = raw := take_length
      cases io with
      | read =>
        right
        refine ⟨raw.length, none, hpath, ?_, fun _ => hall⟩
        simp [reloadRatchets, loaded, if_neg hpath, hfile]
      | unreadable err =>
        left
        exact ⟨some err, by simp [reloadRatchets, if_neg hpath, hfile]⟩
      | outOfMemory n err =>
        right
        refine ⟨n, if n < raw.length then some err else none, hpath, ?_, nofun⟩
        simp [reloadRatchets, loaded, if_neg hpath, hfile]

lemma Kept.reload (hs : Kept C s) {io : ReloadIO} (h : io.complete) :
    Kept C (s.reloadRatchets io).1 := by
  rcases reloadRatchets_cases s io with ⟨err, heq⟩ | ⟨n, err, hpath, heq, hall⟩
  · rw [heq]
    exact hs
  · rw [heq, loaded, hall h]
    exact { hs with held := hs.stored hpath }

lemma Kept.decrypt (hs : Kept C s) (i : TokenIdentity) (token : Bytes) {io : DecryptIO}
    (h : io.reload.complete) : Kept C (s.decrypt C i token io).1 := by
  have hr := hs.reload h
  rw [RatchetDest.decrypt]
  split_ifs
  · exact hs
  · cases i.decrypt C io.admitted token s.getRatchets s.enforceRatchets with
    | ok plaintext => exact hs
    | error err =>
      rcases hrel : s.reloadRatchets io.reload with ⟨s', _ | err'⟩
      · rw [hrel] at hr
        exact hr
      · rw [hrel] at hr
        exact hr

/-- **Every allowed step keeps the ratchets announced last.** -/
lemma Kept.step (hC : C.Correct) (i : TokenIdentity) (s : RatchetDest) (e : RatchetStep)
    (hs : Kept C s) (h : s.Allowed C e) : Kept C (s.step C i e) := by
  cases e with
  | rotate io => exact hs.rotate h
  | announce io sent => exact hs.announce hC h
  | decrypt token io => exact hs.decrypt i token h
  | reload io => exact hs.reload h
  | enforce => exact { hs with }

/-! ## Decrypting -/

lemma Kept.usable (hC : C.Correct) (hi : i.privateKey.isSome) (hs : Kept C s) : s.Usable C i := by
  intro P hP eph E iv plaintext token heph htoken io hio
  obtain ⟨r, hr, hrP⟩ := hs.held P hP
  have hrP := TokenCrypto.mem_publicKey.1 hrP
  have hen : s.ratchetsEnabled := hs.enabled (ne_nil_of_mem (mem_of_mem_take hP))
  have hget : s.getRatchets = s.ratchets := by simp [getRatchets, hen]
  have hpos : 0 < P.length := by
    rw [hC.length_publicKey hrP]
    omega
  have hdec := (TokenIdentity.decrypt_encrypt hC heph (if_pos hpos) htoken s.ratchets).1
    ⟨r, hr, hrP⟩ hi s.enforceRatchets
  have hne : s.ratchets.length ≠ 0 := (length_pos_of_mem hr).ne'
  simp [RatchetDest.decrypt, hget, hne, hio, hdec]

lemma enforcing (hC : C.Correct) (i : TokenIdentity) (s : RatchetDest) : s.Enforcing C i := by
  intro henf hmem hfile eph E iv plaintext token heph htoken io
  have hno : ∀ rs : List Bytes, (∀ r ∈ rs, r ∈ s.ratchets ∨ r ∈ s.file.getD []) → ∀ admitted,
      ∃ err, i.decrypt C admitted token rs true = .error err := by
    intro rs hrs
    refine (TokenIdentity.decrypt_encrypt hC heph rfl htoken rs).2 ?_
    rintro ⟨r, hr, hrP⟩
    have hrP := TokenCrypto.mem_publicKey.2 hrP
    rcases hrs r hr with h | h
    · exact hmem ⟨r, h, hrP⟩
    · exact hfile ⟨r, h, hrP⟩
  have hget : ∀ t : RatchetDest, (∀ r ∈ t.ratchets, r ∈ s.ratchets ∨ r ∈ s.file.getD []) →
      ∀ r ∈ t.getRatchets, r ∈ s.ratchets ∨ r ∈ s.file.getD [] := by
    intro t ht r hr
    rw [getRatchets] at hr
    split_ifs at hr
    · exact ht r hr
    · cases hr
  simp only [decrypt, henf]
  split_ifs
  · exact hno [] (by simp) io.admitted
  · obtain ⟨err, herr⟩ := hno s.getRatchets (hget s fun r hr => .inl hr) io.admitted
    simp only [herr]
    rcases reloadRatchets_cases s io.reload with ⟨err', heq⟩ | ⟨n, err', -, heq, -⟩
    · rw [heq]
      cases err' with
      | some err' => exact ⟨err, rfl⟩
      | none => exact hno s.getRatchets (hget s fun r hr => .inl hr) io.admittedAgain
    · rw [heq]
      cases err' with
      | some err' => exact ⟨err, rfl⟩
      | none =>
        exact hno (s.loaded n).getRatchets
          (hget (s.loaded n) fun r hr => .inr (mem_of_mem_take hr)) io.admittedAgain

/-- **Announced ratchets stay usable** in every run whose steps are allowed, and ratchets that are
enforced are enforced in every run. -/
theorem usable_of_allowed (hC : C.Correct) (i : TokenIdentity) (hi : i.privateKey.isSome = true)
    (s : RatchetDest) (hs : s.announced = []) (es : List RatchetStep) :
    (Run.Along (step C i) (Allowed C) s es → Run.Always (step C i) (Usable C i) s es) ∧
      Run.Always (step C i) (Enforcing C i) s es := by
  constructor
  · intro h
    have hkept : Kept C s :=
      ⟨by simp [hs], by simp [hs], fun hne => absurd hs hne⟩
    exact (Run.always_of_along (.step hC i) hkept h).mono fun t ht => ht.usable hC hi
  · exact Run.always_of_step (fun t e _ => enforcing hC i (t.step C i e)) (enforcing hC i s) es

end RatchetDest

/-! ## A rotation that is not persisted -/

def sumCrypto : TokenCrypto where
  publicKeyFromPrivate r := if r.length = 32 then .ok r else .error "bad scalar length"
  deriveSharedSecret a B :=
    if a.length = 32 ∧ B.length = 32 then .ok (zipWith (· + ·) a B)
    else .error "bad input point"
  deriveIdentityKeyMaterial s := .ok (s ++ s)
  computeHMAC key _ := (key ++ replicate 32 0).take 32
  validateHMAC key _ mac := mac = (key ++ replicate 32 0).take 32
  encryptAES256CBC _ _ plaintext := .ok (replicate 32 0 ++ plaintext)
  decryptAES256CBC _ c := .ok (c.drop 32)

lemma sumCrypto_publicKey {P : Bytes} (h : sumCrypto.publicKeyFromPrivate r = .ok P) :
    r.length = 32 ∧ P = r := by
  simp only [sumCrypto] at h
  split_ifs at h with hr
  cases h
  exact ⟨hr, rfl⟩

lemma sumCrypto_secret {a B s : Bytes} (h : sumCrypto.deriveSharedSecret a B = .ok s) :
    (a.length = 32 ∧ B.length = 32) ∧ s = zipWith (· + ·) a B := by
  simp only [sumCrypto] at h
  split_ifs at h with hlen
  cases h
  exact ⟨hlen, rfl⟩

lemma zipWith_add_cancel {a b e : Bytes} (hb : b.length = e.length) (ha : a.length = e.length)
    (h : zipWith (· + ·) b e = zipWith (· + ·) e a) : b = a := by
  induction e generalizing a b with
  | nil => rw [length_eq_zero_iff.1 hb, length_eq_zero_iff.1 ha]
  | cons x e ih =>
    cases b with
    | nil => cases hb
    | cons y b =>
      cases a with
      | nil => cases ha
      | cons z a =>
        simp only [zipWith_cons_cons, cons.injEq] at h
        have hyz : y = z := by
          rw [add_comm x z] at h
          exact add_right_cancel h.1
        rw [hyz, ih (Nat.succ.inj hb) (Nat.succ.inj ha) h.2]

lemma sumCrypto_correct : sumCrypto.Correct where
  publicKey_ok r h := ⟨r, if_pos h⟩
  length_publicKey h := by
    obtain ⟨hr, rfl⟩ := sumCrypto_publicKey h
    exact hr
  agreement {a b A B} ha hb := by
    obtain ⟨ha, rfl⟩ := sumCrypto_publicKey ha
    obtain ⟨hb, rfl⟩ := sumCrypto_publicKey hb
    simp [sumCrypto, ha, hb, zipWith_comm_of_comm add_comm]
  validate key message := by simp [sumCrypto]
  length_hmac key message := by simp [sumCrypto]
  decrypt_encrypt {key iv plaintext c} h := by
    cases h
    simp [sumCrypto]
  length_encrypt {key iv plaintext c} h := by
    cases h
    simp
  authentic {eph E B b s k s' k' m} heph hs hk hs' hk' h := by
    obtain ⟨heph, rfl⟩ := sumCrypto_publicKey heph
    obtain ⟨⟨-, hB⟩, rfl⟩ := sumCrypto_secret hs
    obtain ⟨⟨hb, -⟩, rfl⟩ := sumCrypto_secret hs'
    cases hk
    cases hk'
    have hlen : (zipWith (· + ·) E B).length = 32 := by simp [heph, hB]
    have hlen' : (zipWith (· + ·) b E).length = 32 := by simp [heph, hb]
    simp only [sumCrypto, decide_eq_true_eq] at h
    rw [← hlen, take_left, take_left, hlen, ← hlen', take_left, take_left] at h
    have hbB := zipWith_add_cancel (hb.trans heph.symm) (hB.trans heph.symm) h.symm
    rw [hbB]
    exact if_pos hB

namespace RatchetDest

def fresh (ratchetCount : ℕ) (count_pos : 0 < ratchetCount) : RatchetDest where
  ratchetsEnabled := true
  ratchetPath := "ratchets"
  file := none
  ratchets := []
  latestRatchetTime := none
  ratchetCount
  count_pos
  ratchetInterval := 1800
  enforceRatchets := false
  announced := []

def plainRatchet (b : UInt8) : {r : Bytes // r.length = ratchetSize} :=
  ⟨replicate 32 b, length_replicate⟩

def plainIdentity : TokenIdentity :=
  { publicKey := replicate 32 1, privateKey := some (replicate 32 1) }

def announceAt (second : ℤ) (b : UInt8) (persistErr : Option String) : RatchetStep :=
  .announce ⟨second * 1000000000, .ok (plainRatchet b), persistErr⟩ true

def decryptGarbage : RatchetStep :=
  .decrypt [] { admitted := true, reload := .read, admittedAgain := true }

/-- One ratchet is retained: after the second announce it is the second one that can decrypt,
whatever tokens arrive. -/
theorem usable_of_two_rotations :
    let es := [announceAt 0 7 none, decryptGarbage, announceAt 1800 8 none, decryptGarbage]
    Run.Always (step sumCrypto plainIdentity) (Usable sumCrypto plainIdentity)
        (fresh 1 one_pos) es ∧
      (Run.exec (step sumCrypto plainIdentity) (fresh 1 one_pos) es).announced.take 1 =
        [replicate 32 8] :=
  ⟨(usable_of_allowed sumCrypto_correct plainIdentity rfl (fresh 1 one_pos) rfl _).1
    (by decide +kernel), by decide +kernel⟩

/-- **A token that nobody can decrypt makes an announced ratchet useless.**  The first rotation
cannot be written to the file, and `Announce` returns the error.  The second `Announce` comes before
the next rotation is due and carries the same ratchet; the reload then drops it. -/
theorem garbage_token_loses_ratchet :
    sumCrypto.Correct ∧ ¬ Usable sumCrypto plainIdentity
      (Run.exec (step sumCrypto plainIdentity) (fresh 512 (by decide))
        [announceAt 0 7 (some "failed to write ratchet file: no space left on device"),
          announceAt 60 8 none, decryptGarbage]) := by
  refine ⟨sumCrypto_correct, fun h => ?_⟩
  have hdec := h (replicate 32 7) (by decide +kernel) (replicate 32 2)
    (replicate 32 2) [] [104, 105] _ rfl rfl
    { admitted := true, reload := .read, admittedAgain := true } rfl
  have hnone := congrArg Except.toOption hdec
  revert hnone
  decide +kernel

end RatchetDest

end Reticulum

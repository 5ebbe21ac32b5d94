import Reticulum.Link.Inbound
import Reticulum.Packet.Pack
import Reticulum.Transport.Relay

/-!
# The proof of a link

The initiator of a link waits for the **proof** of the other end: a signature of the destination
over the link, the ephemeral key of the peer and three **signalling** bytes
(`pkg/link/link_proof.go`).

Everyone who saw the link request can send a proof, so one that fails should leave the link as it
was.  But the MTU, the mode and the keys of the peer are written to the link before the signature is
checked, and a link without a known destination, or whose keys cannot be derived, is closed
(`forgedProof_breaks_link`).  **`failed_proof_harmless_iff`** says which proofs do no harm.
-/

namespace Reticulum

open Packet.Constants

/-! ## The link and its surroundings -/

structure LinkDestination where
  hash : Bytes
  identity : Option Bytes
deriving DecidableEq

/-- The link, as far as its establishment is concerned.  A key that is not there is empty. -/
structure PendingLink where
  initiator : Bool
  status : LinkStatus
  teardownReason : LinkStatus
  linkID : Bytes
  expectedHops : UInt8
  rebalanced : Option ℕ
  hasTransport : Bool
  destination : Option LinkDestination
  prv : Option Bytes
  mtu : ℕ
  mdu : ℤ
  mode : UInt8
  peerPub : Bytes
  peerSigPub : Bytes
  sharedKey : Bytes
  derivedKey : Bytes
  hmacKey : Bytes
  sessionKey : Bytes
deriving DecidableEq

/-- A proof: the hops and the data of the packet, and the interface it came on, if one is given. -/
structure LinkProof where
  hops : UInt8
  data : Bytes
  iface : Option ℕ
deriving DecidableEq

/-- The cryptography, and what the link asks of the node. -/
structure ProofSurroundings where
  /-- public key, message, signature -/
  verify : Bytes → Bytes → Bytes → Bool
  /-- private key, public key of the peer -/
  deriveSharedSecret : Bytes → Bytes → Except String Bytes
  /-- secret, salt, length -/
  deriveKey : Bytes → Bytes → ℕ → Except String Bytes
  isLocalClientInterface : ℕ → Bool
  linkPathRebalanceAllowed : Bool
  rebalancePathHops : Bytes → UInt8 → Option ℕ → Bool

/-- What one validation meets: the time, the secure buffers that cannot be had (the calls are
counted), whether the link is closed in the meantime, and whether the round trip time can be
encoded. -/
structure ProofAttempt where
  now : ℕ
  secBufError : ℕ → Option String
  closed : Bool
  rttError : Option String

/-- How the validation ends.  It crashes where a log line takes eight bytes of what is shorter. -/
inductive ProofVerdict where
  | accepted
  | refused (err : String)
  | crashed
deriving DecidableEq

def LinkStatus.toNat : LinkStatus → ℕ
  | .pending => 0
  | .handshake => 1
  | .active => 2
  | .stale => 3
  | .closed => 4
  | .failed => 5

namespace LinkProof

def sigLength : ℕ := 64
def keySize : ℕ := 32
def ecPubSize : ℕ := 64
def linkMTUSize : ℕ := 3
def modeByteMask : UInt8 := 0xE0

section

variable (proof : LinkProof)

def signature : Bytes := proof.data.take sigLength

def peerPub : Bytes := (proof.data.drop sigLength).take keySize

def hasSignalling : Bool :=
  decide (sigLength + keySize + linkMTUSize ≤ proof.data.length)

def signalling : Bytes :=
  if proof.hasSignalling then (proof.data.drop (sigLength + keySize)).take linkMTUSize
  else [0, 0, 0]

def signalledMTU : ℕ :=
  ((proof.signalling.getD 0 0 &&& 0x1F).toNat <<< 16) |||
    ((proof.signalling.getD 1 0).toNat <<< 8) ||| (proof.signalling.getD 2 0).toNat

def signalledMode : UInt8 := (proof.signalling.getD 0 0 &&& modeByteMask) >>> 5

def TooShort : Prop := proof.data.length < sigLength + keySize

end

instance (proof : LinkProof) : Decidable proof.TooShort := inferInstanceAs (Decidable (_ < _))

def accountInboundHops (env : ProofSurroundings) (proof : LinkProof) : UInt8 :=
  match proof.iface with
  | none => proof.hops
  | some iface => linkRelayAccountedHops proof.hops (env.isLocalClientInterface iface)

def signedData (proof : LinkProof) (linkID peerSigPub : Bytes) : Bytes :=
  linkID ++ proof.peerPub ++ peerSigPub ++ proof.signalling

end LinkProof

namespace PendingLink

open LinkProof

/-! ## Hops -/

def identity (l : PendingLink) : Option Bytes := l.destination.bind LinkDestination.identity

def destinationSigPub (l : PendingLink) : Option Bytes :=
  match l.identity with
  | none => none
  | some pub => if ecPubSize ≤ pub.length then some ((pub.drop keySize).take keySize) else none

section

variable (env : ProofSurroundings) (attempt : ProofAttempt) (l : PendingLink) (proof : LinkProof)

/-- Whether a proof with another hop count may correct the one that is expected: once, while the
link is pending, and with a valid signature. -/
def mayRebalance : Bool :=
  l.hasTransport && decide (l.status = .pending) && l.rebalanced.isNone &&
    env.linkPathRebalanceAllowed && decide (sigLength + keySize ≤ proof.data.length) &&
    !(proof.hasSignalling && decide (l.mode ≠ 0) && decide (proof.signalledMode ≠ l.mode)) &&
    match l.destination with
    | some ⟨hash, some pub⟩ =>
      let peerSigPub := if l.peerSigPub = [] then l.destinationSigPub.getD [] else l.peerSigPub
      decide (peerSigPub ≠ []) &&
        env.verify pub (proof.signedData l.linkID peerSigPub) proof.signature &&
        env.rebalancePathHops hash (proof.accountInboundHops env) proof.iface
    | _ => false

def HopsMatch : Prop :=
  l.expectedHops.toNat = pathfinderM ∨ proof.accountInboundHops env = l.expectedHops

instance : Decidable (l.HopsMatch env proof) :=
  inferInstanceAs (Decidable (_ ∨ _))

def rebalancedBy : PendingLink :=
  { l with
    rebalanced := some attempt.now
    expectedHops := proof.accountInboundHops env }

/-- Takes over the hop count of a proof, where it may. -/
def tryTerminusPathRebalanceLocked : Option PendingLink :=
  if l.mayRebalance env proof then some (l.rebalancedBy env attempt proof) else none

end

/-! ## Keys -/

def modeAES128CBC : UInt8 := 0
def modeAES256CBC : UInt8 := 1

def derivedKeyLength (mode : UInt8) : Option ℕ :=
  if mode = modeAES128CBC then some 32
  else if mode = modeAES256CBC then some 64
  else none

def splitKey (key : Bytes) : Option (Bytes × Bytes) :=
  if 64 ≤ key.length then some (key.take 32, (key.drop 32).take 32)
  else if 32 ≤ key.length then some (key.take 16, (key.drop 16).take 16)
  else none

/-- Keeps a key in a secure buffer.  What was there before is gone in any case. -/
def setSecBuf (attempt : ProofAttempt) (call : ℕ) (src : Bytes) : Bytes × Option String :=
  if src = [] then ([], none)
  else
    match attempt.secBufError call with
    | some err => ([], some err)
    | none => (src, none)

/-- The end of `performHandshakeLocked`: the keys that are derived are kept. -/
def storeKeys (attempt : ProofAttempt) (l : PendingLink) (key : Bytes) :
    PendingLink × Except String Unit :=
  match setSecBuf attempt 1 key with
  | (buf, some err) => ({ l with derivedKey := buf }, .error err)
  | (buf, none) =>
    let l := { l with derivedKey := buf }
    match splitKey key with
    | none => ({ l with status := .handshake }, .ok ())
    | some (hmac, session) =>
      match setSecBuf attempt 2 hmac with
      | (buf, some err) => ({ l with hmacKey := buf }, .error err)
      | (buf, none) =>
        let l := { l with hmacKey := buf }
        match setSecBuf attempt 3 session with
        | (buf, some err) => ({ l with sessionKey := buf }, .error err)
        | (buf, none) => ({ l with sessionKey := buf, status := .handshake }, .ok ())

/-- Derives the session keys from the key of the peer. -/
def performHandshakeLocked (env : ProofSurroundings) (attempt : ProofAttempt) (l : PendingLink) :
    PendingLink × Except String Unit :=
  if l.peerPub.length ≠ keySize then (l, .error "invalid peer public key length")
  else
    match l.prv with
    | none => (l, .error "missing ephemeral private key")
    | some prv =>
      match env.deriveSharedSecret prv l.peerPub with
      | .error err => (l, .error s!"ECDH failed: {err}")
      | .ok secret =>
        match setSecBuf attempt 0 secret with
        | (buf, some err) => ({ l with sharedKey := buf }, .error err)
        | (buf, none) =>
          let l := { l with sharedKey := buf }
          match derivedKeyLength l.mode with
          | none => (l, .error s!"invalid link mode: {l.mode}")
          | some length =>
            match env.deriveKey l.sharedKey l.linkID length with
            | .error err => (l, .error s!"HKDF failed: {err}")
            | .ok key => storeKeys attempt l key

/-! ## Validation -/

def headerMinSize : ℤ := 19
def ifacMinSize : ℤ := 1
def tokenOverhead : ℤ := 48
def aesBlockSize : ℤ := 16
def defaultMTU : ℤ := 500

section

variable (l : PendingLink)

def updateMDU : PendingLink :=
  let mtu := min l.mtu Packet.Constants.mtu
  let mdu := ((mtu : ℤ) - headerMinSize - ifacMinSize - tokenOverhead).tdiv aesBlockSize *
    aesBlockSize - 1
  { l with mtu, mdu := if mdu < 0 then defaultMTU / 15 else mdu }

def markInitiatorEstablishmentFailedLocked : PendingLink :=
  if !l.initiator then l else { l with teardownReason := .failed, status := .closed }

def promoteToActive : Option PendingLink :=
  match l.status with
  | .active => some l
  | .handshake | .pending | .stale => some { l with status := .active }
  | .closed | .failed => none

def proofMTU (proof : LinkProof) : ℕ :=
  if proof.hasSignalling then proof.signalledMTU else l.mtu

def proofMode (proof : LinkProof) : UInt8 :=
  if proof.hasSignalling then proof.signalledMode else l.mode

def proofSigPub : Bytes := l.destinationSigPub.getD l.peerSigPub

def readProof (proof : LinkProof) : PendingLink :=
  { l with
    mtu := l.proofMTU proof
    mode := l.proofMode proof
    peerPub := proof.peerPub
    peerSigPub := l.proofSigPub }

/-- A log line takes eight bytes of the link identity and of the key that was just set. -/
def Crashes : Prop := l.linkID.length < 8 ∨ l.proofSigPub.length < 8

end

instance (l : PendingLink) : Decidable l.Crashes := inferInstanceAs (Decidable (_ ∨ _))

section

variable (env : ProofSurroundings) (attempt : ProofAttempt) (l : PendingLink)

def completeProof : PendingLink × ProofVerdict :=
  match performHandshakeLocked env attempt l with
  | (l, .error err) =>
    (l.markInitiatorEstablishmentFailedLocked, .refused s!"handshake failed: {err}")
  | (l, .ok ()) =>
    let l := l.updateMDU
    let l := if attempt.closed then { l with status := .closed } else l
    match l.promoteToActive with
    | none =>
      (l.markInitiatorEstablishmentFailedLocked, .refused "link closed before becoming active")
    | some l =>
      match attempt.rttError with
      | some err => (l, .refused s!"failed to encode RTT payload: {err}")
      | none => (l, .accepted)

def checkProof (proof : LinkProof) : PendingLink × ProofVerdict :=
  if proof.TooShort then (l, .refused "link proof data too short")
  else if l.Crashes then (l.readProof proof, .crashed)
  else
    let l := l.readProof proof
    match l.identity with
    | none =>
      (l.markInitiatorEstablishmentFailedLocked,
        .refused "no destination identity for proof validation")
    | some pub =>
      if !env.verify pub (proof.signedData l.linkID l.peerSigPub) proof.signature then
        (l, .refused "link proof signature validation failed")
      else l.completeProof env attempt

def passHopGate (proof : LinkProof) : Option PendingLink :=
  if l.HopsMatch env proof then some l else l.tryTerminusPathRebalanceLocked env attempt proof

def validateLinkProofLocked (proof : LinkProof) : PendingLink × ProofVerdict :=
  if !l.initiator then (l, .accepted)
  else if l.status ≠ .pending ∧ l.status ≠ .handshake then
    (l, .refused s!"invalid link status for proof validation: {l.status.toNat}")
  else
    match l.passHopGate env attempt proof with
    | none =>
      let accounted := proof.accountInboundHops env
      (l, .refused s!"link proof hop count mismatch: got {accounted} want {l.expectedHops}")
    | some l => l.checkProof env attempt proof

end

/-! ## Harmless proofs -/

structure SameSession (l l' : PendingLink) : Prop where
  mtu : l'.mtu = l.mtu
  mode : l'.mode = l.mode
  peerPub : l'.peerPub = l.peerPub
  peerSigPub : l'.peerSigPub = l.peerSigPub
  expectedHops : l'.expectedHops = l.expectedHops
  sharedKey : l'.sharedKey = l.sharedKey
  derivedKey : l'.derivedKey = l.derivedKey
  hmacKey : l'.hmacKey = l.hmacKey
  sessionKey : l'.sessionKey = l.sessionKey
  status : l'.status = l.status

def BufOk (attempt : ProofAttempt) (call : ℕ) (src : Bytes) : Prop :=
  src = [] ∨ attempt.secBufError call = none

section

variable (env : ProofSurroundings) (attempt : ProofAttempt)

/-- The session keys are derived and kept. -/
structure KeysAgree (prv : Option Bytes) (linkID peerPub : Bytes) (mode : UInt8)
    (secret key : Bytes) (length : ℕ) : Prop where
  length_peerPub : peerPub.length = keySize
  secret_eq : ∃ p, prv = some p ∧ env.deriveSharedSecret p peerPub = .ok secret
  mode_ok : derivedKeyLength mode = some length
  key_eq : env.deriveKey secret linkID length = .ok key
  buf_secret : BufOk attempt 0 secret
  buf_key : BufOk attempt 1 key
  buf_split : ∀ hmac session, splitKey key = some (hmac, session) →
    BufOk attempt 2 hmac ∧ BufOk attempt 3 session

/-- With a valid signature the link is established: its keys can be derived, and nothing closes it
in the meantime. -/
structure Establishes (prv : Option Bytes) (linkID peerPub : Bytes) (mode : UInt8) : Prop where
  keys : ∃ secret key length, KeysAgree env attempt prv linkID peerPub mode secret key length
  not_closed : attempt.closed = false
  rtt : attempt.rttError = none

variable (l : PendingLink) (proof : LinkProof)

def Signed (pub : Bytes) : Prop :=
  env.verify pub (proof.signedData l.linkID l.proofSigPub) proof.signature = true

/-- The proof is signed and establishes the link. -/
def Accepts : Prop :=
  ∃ pub, l.identity = some pub ∧ l.Signed env proof pub ∧
    Establishes env attempt l.prv l.linkID proof.peerPub (l.proofMode proof)

/-- The destination is known, and the signature is not its own. -/
def FalselySigned : Prop :=
  ∃ pub, l.identity = some pub ∧ ¬ l.Signed env proof pub

structure Agrees : Prop where
  mtu : l.proofMTU proof = l.mtu
  mode : l.proofMode proof = l.mode
  peerPub : proof.peerPub = l.peerPub
  peerSigPub : l.proofSigPub = l.peerSigPub

/-- **The proofs that do no harm**: those that are refused before they are read or crash the
validation, those that establish the link, and those with a false signature that agree with the link
in everything that is written before the signature is checked. -/
inductive Harmless : Prop where
  | not_initiator (h : l.initiator = false)
  | not_waiting (h : l.status ≠ .pending ∧ l.status ≠ .handshake)
  | wrong_hops (h : ¬ l.HopsMatch env proof) (hrebalance : l.mayRebalance env proof = false)
  | too_short (h : proof.TooShort)
  | crashes (h : l.Crashes)
  | accepts (h : l.Accepts env attempt proof)
  | agrees (hhops : l.HopsMatch env proof) (hsigned : l.FalselySigned env proof)
      (h : l.Agrees proof)

end

/-! ## The handshake -/

section

variable {env : ProofSurroundings} {attempt : ProofAttempt} {l : PendingLink} {proof : LinkProof}

lemma setSecBuf_of_ok {call : ℕ} {src : Bytes} (h : BufOk attempt call src) :
    setSecBuf attempt call src = (src, none) := by
  unfold setSecBuf
  rcases h with rfl | hnone
  · rfl
  · rw [hnone]
    split_ifs with hsrc
    · rw [hsrc]
    · rfl

lemma setSecBuf_of_not_ok {call : ℕ} {src : Bytes} (h : ¬ BufOk attempt call src) :
    ∃ err, setSecBuf attempt call src = ([], some err) := by
  obtain ⟨hsrc, herr⟩ := not_or.1 h
  obtain ⟨err, herr⟩ := Option.ne_none_iff_exists'.1 herr
  exact ⟨err, by simp [setSecBuf, hsrc, herr]⟩

lemma performHandshake_initiator :
    (performHandshakeLocked env attempt l).1.initiator = l.initiator := by
  simp only [performHandshakeLocked, storeKeys]
  repeat' split
  all_goals rfl

lemma storeKeys_ok_iff {key : Bytes} :
    (storeKeys attempt l key).2 = .ok () ↔
      BufOk attempt 1 key ∧ ∀ hmac session, splitKey key = some (hmac, session) →
        BufOk attempt 2 hmac ∧ BufOk attempt 3 session := by
  unfold storeKeys
  by_cases hkey : BufOk attempt 1 key
  swap
  · obtain ⟨err, herr⟩ := setSecBuf_of_not_ok hkey
    simp [herr, hkey]
  simp only [setSecBuf_of_ok hkey, hkey]
  cases hsplit : splitKey key with
  | none => simp
  | some keys =>
    obtain ⟨hmac, session⟩ := keys
    by_cases hhmac : BufOk attempt 2 hmac
    swap
    · obtain ⟨err, herr⟩ := setSecBuf_of_not_ok hhmac
      simp [herr, hhmac]
    by_cases hsession : BufOk attempt 3 session
    · simp [setSecBuf_of_ok hhmac, setSecBuf_of_ok hsession, hhmac, hsession]
    · obtain ⟨err, herr⟩ := setSecBuf_of_not_ok hsession
      simp [setSecBuf_of_ok hhmac, herr, hsession]

lemma storeKeys_status {key : Bytes} (h : (storeKeys attempt l key).2 = .ok ()) :
    (storeKeys attempt l key).1.status = .handshake := by
  revert h
  unfold storeKeys
  repeat' split
  all_goals
    intro h
    first | rfl | cases h

/-- **The handshake succeeds if the keys can be derived and kept.** -/
lemma performHandshake_ok_iff :
    (performHandshakeLocked env attempt l).2 = .ok () ↔
      ∃ secret key length,
        KeysAgree env attempt l.prv l.linkID l.peerPub l.mode secret key length := by
  constructor
  · intro h
    unfold performHandshakeLocked at h
    split at h
    · cases h
    rename_i hlen
    split at h
    · cases h
    rename_i prv hprv
    split at h
    · cases h
    rename_i secret hsecret
    by_cases hbuf : BufOk attempt 0 secret
    swap
    · obtain ⟨err, herr⟩ := setSecBuf_of_not_ok hbuf
      simp [herr] at h
    simp only [setSecBuf_of_ok hbuf] at h
    split at h
    · cases h
    rename_i length hmode
    split at h
    · cases h
    rename_i key hkey
    obtain ⟨hbufKey, hsplit⟩ := storeKeys_ok_iff.1 h
    exact ⟨secret, key, length, not_not.1 hlen, ⟨prv, hprv, hsecret⟩, hmode, hkey, hbuf, hbufKey,
      hsplit⟩
  · rintro ⟨secret, key, length, h⟩
    obtain ⟨prv, hprv, hsecret⟩ := h.secret_eq
    simp only [performHandshakeLocked, h.length_peerPub, hprv, hsecret,
      setSecBuf_of_ok h.buf_secret, h.mode_ok, h.key_eq]
    exact storeKeys_ok_iff.2 ⟨h.buf_key, h.buf_split⟩

lemma performHandshake_status (h : (performHandshakeLocked env attempt l).2 = .ok ()) :
    (performHandshakeLocked env attempt l).1.status = .handshake := by
  obtain ⟨secret, key, length, hkeys⟩ := performHandshake_ok_iff.1 h
  obtain ⟨prv, hprv, hsecret⟩ := hkeys.secret_eq
  simp only [performHandshakeLocked, hkeys.length_peerPub, hprv, hsecret,
    setSecBuf_of_ok hkeys.buf_secret, hkeys.mode_ok, hkeys.key_eq]
  exact storeKeys_status (storeKeys_ok_iff.2 ⟨hkeys.buf_key, hkeys.buf_split⟩)

/-! ## What a failed proof leaves behind -/

lemma markFailed_status (hinit : l.initiator) :
    l.markInitiatorEstablishmentFailedLocked.status = .closed := by
  simp [markInitiatorEstablishmentFailedLocked, hinit]

lemma completeProof_spec (hinit : l.initiator) :
    Establishes env attempt l.prv l.linkID l.peerPub l.mode ∧
        (l.completeProof env attempt).2 = .accepted ∧
        (l.completeProof env attempt).1.status = .active ∨
      ¬ Establishes env attempt l.prv l.linkID l.peerPub l.mode ∧
        (∃ err, (l.completeProof env attempt).2 = .refused err) ∧
        ((l.completeProof env attempt).1.status = .closed ∨
          (l.completeProof env attempt).1.status = .active) := by
  have hinit' : (performHandshakeLocked env attempt l).1.initiator :=
    performHandshake_initiator.trans hinit
  have hiff := @performHandshake_ok_iff env attempt l
  have hstatus := @performHandshake_status env attempt l
  unfold completeProof
  rcases hshake : performHandshakeLocked env attempt l with ⟨l', err | ⟨⟩⟩
  · -- the handshake fails, and the link closes
    rw [hshake] at hinit' hiff
    refine .inr ⟨fun h => ?_, ⟨_, rfl⟩, .inl (markFailed_status hinit')⟩
    cases hiff.2 h.keys
  · rw [hshake] at hinit' hiff hstatus
    have hkeys := hiff.1 rfl
    have hshaken : l'.status = .handshake := hstatus rfl
    cases hclosed : attempt.closed with
    | true =>
      refine .inr ⟨fun h => ?_, ⟨_, rfl⟩, .inl (markFailed_status hinit')⟩
      cases hclosed.symm.trans h.not_closed
    | false =>
      have hpromote : l'.updateMDU.promoteToActive =
          some { l'.updateMDU with status := .active } := by
        simp [promoteToActive, updateMDU, hshaken]
      simp only [hpromote, Bool.false_eq_true, if_false]
      cases hrtt : attempt.rttError with
      | none => exact .inl ⟨⟨hkeys, hclosed, hrtt⟩, rfl, rfl⟩
      | some err =>
        refine .inr ⟨fun h => ?_, ⟨_, rfl⟩, .inr rfl⟩
        cases hrtt.symm.trans h.rtt

lemma Accepts.not_falselySigned (h : l.Accepts env attempt proof) :
    ¬ l.FalselySigned env proof := by
  rintro ⟨pub, hpub, hsigned⟩
  obtain ⟨pub', hpub', hsigned', -⟩ := h
  rw [hpub] at hpub'
  obtain rfl := Option.some.inj hpub'
  exact hsigned hsigned'

lemma checkProof_tooShort (h : proof.TooShort) :
    l.checkProof env attempt proof = (l, .refused "link proof data too short") := by
  simp [checkProof, h]

lemma checkProof_crashes (h : ¬ proof.TooShort) (hcrash : l.Crashes) :
    (l.checkProof env attempt proof).2 = .crashed := by
  simp [checkProof, h, hcrash]

/-- **The ways in which the validation ends after a proof is read.** -/
lemma checkProof_cases (env : ProofSurroundings) (attempt : ProofAttempt)
    (hinit : l.initiator) (hshort : ¬ proof.TooShort) (hcrash : ¬ l.Crashes) :
    (l.Accepts env attempt proof ∧ (l.checkProof env attempt proof).2 = .accepted ∧
        (l.checkProof env attempt proof).1.status = .active) ∨
      (l.FalselySigned env proof ∧ l.checkProof env attempt proof =
        (l.readProof proof, .refused "link proof signature validation failed")) ∨
      (¬ l.Accepts env attempt proof ∧ ¬ l.FalselySigned env proof ∧
        (∃ err, (l.checkProof env attempt proof).2 = .refused err) ∧
        ((l.checkProof env attempt proof).1.status = .closed ∨
          (l.checkProof env attempt proof).1.status = .active)) := by
  have hinit' : (l.readProof proof).initiator := hinit
  have hidentity : (l.readProof proof).identity = l.identity := rfl
  simp only [checkProof, hshort, hcrash, if_false, hidentity]
  cases hpub : l.identity with
  | none =>
    refine .inr (.inr ⟨?_, ?_, ⟨_, rfl⟩, .inl (markFailed_status hinit')⟩)
    · rintro ⟨pub, hpub', -⟩
      cases hpub.symm.trans hpub'
    · rintro ⟨pub, hpub', -⟩
      cases hpub.symm.trans hpub'
  | some pub =>
    by_cases hsigned : l.Signed env proof pub
    · have hverify : env.verify pub (proof.signedData (l.readProof proof).linkID
          (l.readProof proof).peerSigPub) proof.signature := hsigned
      simp only [hverify]
      have hnot : ¬ l.FalselySigned env proof := by
        rintro ⟨pub', hpub', hsigned'⟩
        obtain rfl := Option.some.inj (hpub.symm.trans hpub')
        exact hsigned' hsigned
      rcases completeProof_spec hinit' with ⟨hest, haccepted⟩ | ⟨hest, hrefused, hstatus⟩
      · exact .inl ⟨⟨pub, hpub, hsigned, hest⟩, haccepted⟩
      · refine .inr (.inr ⟨?_, hnot, hrefused, hstatus⟩)
        rintro ⟨pub', hpub', -, hest'⟩
        exact hest hest'
    · have hverify : env.verify pub (proof.signedData (l.readProof proof).linkID
          (l.readProof proof).peerSigPub) proof.signature = false := Bool.eq_false_iff.2 hsigned
      simp only [hverify, Bool.not_false, if_true, and_true]
      exact .inr (.inl ⟨pub, hpub, hsigned⟩)

def Waits (l : PendingLink) : Prop :=
  l.initiator = true ∧ (l.status = .pending ∨ l.status = .handshake)

lemma readProof_of_agrees (h : l.Agrees proof) : l.readProof proof = l := by
  unfold readProof
  rw [h.mtu, h.mode, h.peerPub, h.peerSigPub]

lemma agrees_of_same (h : SameSession l (l.readProof proof)) : l.Agrees proof :=
  { h with }

lemma not_same_of_status {l' : PendingLink} (hwaits : l.Waits)
    (h : l'.status = .closed ∨ l'.status = .active) : ¬ SameSession l l' := by
  intro hsame
  have hstatus := hsame.status
  rcases hwaits.2 with hw | hw <;> rcases h with hc | hc <;> rw [hw, hc] at hstatus <;>
    cases hstatus

/-! ## The validation as a whole -/

lemma not_tooShort_of_mayRebalance (h : l.mayRebalance env proof) : ¬ proof.TooShort := by
  simp only [mayRebalance, Bool.and_eq_true, decide_eq_true_eq] at h
  exact not_lt.2 h.1.1.2

lemma validate_of_not_waits (h : ¬ l.Waits) :
    (l.validateLinkProofLocked env attempt proof).1 = l := by
  simp only [Waits, not_and_or, not_or] at h
  rcases h with hinit | ⟨hp, hh⟩
  · simp [validateLinkProofLocked, hinit]
  · cases hinit : l.initiator <;> simp [validateLinkProofLocked, hinit, hp, hh]

/-- A link that waits for its proof: which is refused for its hops, checked, or checked after it has
corrected the number of hops. -/
lemma validate_cases (env : ProofSurroundings) (attempt : ProofAttempt) (proof : LinkProof)
    (hwaits : l.Waits) : (¬ l.HopsMatch env proof ∧ l.mayRebalance env proof = false ∧
        (l.validateLinkProofLocked env attempt proof).1 = l) ∨ (l.HopsMatch env proof ∧
        l.validateLinkProofLocked env attempt proof = l.checkProof env attempt proof) ∨
      (¬ l.HopsMatch env proof ∧ l.mayRebalance env proof ∧
        l.validateLinkProofLocked env attempt proof =
          (l.rebalancedBy env attempt proof).checkProof env attempt proof) := by
  have hstatus : ¬ (l.status ≠ .pending ∧ l.status ≠ .handshake) := by
    rintro ⟨hp, hh⟩
    exact hwaits.2.elim hp hh
  simp only [validateLinkProofLocked, passHopGate, tryTerminusPathRebalanceLocked, hwaits.1,
    hstatus]
  by_cases hhops : l.HopsMatch env proof
  · simp [hhops]
  · cases l.mayRebalance env proof <;> simp [hhops]

lemma checkProof_status (hinit : l.initiator) :
    (l.checkProof env attempt proof).1.status = l.status ∨
      (l.checkProof env attempt proof).1.status = .closed ∨
      (l.checkProof env attempt proof).1.status = .active := by
  by_cases hshort : proof.TooShort
  · rw [checkProof_tooShort hshort]
    exact .inl rfl
  by_cases hcrash : l.Crashes
  · simp only [checkProof, hshort, hcrash]
    exact .inl rfl
  rcases checkProof_cases env attempt hinit hshort hcrash with
    ⟨-, -, hactive⟩ | ⟨-, hread⟩ | ⟨-, -, -, hstatus⟩
  · exact .inr (.inr hactive)
  · rw [hread]
    exact .inl rfl
  · exact .inr hstatus

/-- **What the validation does to the status**: nothing, unless the link waits for a proof; then it
may close the link or make it active. -/
theorem validate_status (env : ProofSurroundings) (attempt : ProofAttempt) (l : PendingLink)
    (proof : LinkProof) : (l.validateLinkProofLocked env attempt proof).1.status = l.status ∨
      (l.Waits ∧
        ((l.validateLinkProofLocked env attempt proof).1.status = .closed ∨
          (l.validateLinkProofLocked env attempt proof).1.status = .active)) := by
  by_cases hwaits : l.Waits
  swap
  · rw [validate_of_not_waits hwaits]
    exact .inl rfl
  rcases validate_cases env attempt proof hwaits with ⟨-, -, hsame⟩ | ⟨-, heq⟩ | ⟨-, -, heq⟩
  · exact .inl (by rw [hsame])
  · rw [heq]
    exact (checkProof_status hwaits.1).imp_right fun h => ⟨hwaits, h⟩
  · rw [heq]
    exact (checkProof_status (l := l.rebalancedBy env attempt proof) hwaits.1).imp_right
      fun h => ⟨hwaits, h⟩

lemma Harmless.of_read (h : Harmless env attempt l proof) (hwaits : l.Waits)
    (hgate : l.HopsMatch env proof ∨ l.mayRebalance env proof)
    (hshort : ¬ proof.TooShort) (hcrash : ¬ l.Crashes) : l.Accepts env attempt proof ∨
      l.HopsMatch env proof ∧ l.FalselySigned env proof ∧ l.Agrees proof := by
  cases h with
  | not_initiator h => cases h.symm.trans hwaits.1
  | not_waiting h => exact absurd hwaits.2 (not_or.2 h)
  | wrong_hops h hrebalance =>
    rcases hgate with hhops | hmay
    · exact absurd hhops h
    · cases hrebalance.symm.trans hmay
  | too_short h => exact absurd h hshort
  | crashes h => exact absurd h hcrash
  | accepts h => exact .inl h
  | agrees hhops hsigned h => exact .inr ⟨hhops, hsigned, h⟩

lemma Harmless.validate_eq (h : Harmless env attempt l proof) {err : String}
    (hrefused : (l.validateLinkProofLocked env attempt proof).2 = .refused err) :
    (l.validateLinkProofLocked env attempt proof).1 = l := by
  by_cases hwaits : l.Waits
  swap
  · exact validate_of_not_waits hwaits
  rcases validate_cases env attempt proof hwaits with
    ⟨-, -, hsame⟩ | ⟨hhops, heq⟩ | ⟨hhops, hmay, heq⟩
  · exact hsame
  · rw [heq] at hrefused ⊢
    by_cases hshort : proof.TooShort
    · rw [checkProof_tooShort hshort]
    by_cases hcrash : l.Crashes
    · cases (checkProof_crashes hshort hcrash).symm.trans hrefused
    rcases checkProof_cases env attempt hwaits.1 hshort hcrash with
      ⟨-, haccepted, -⟩ | ⟨hsigned, hread⟩ | ⟨hnot, hnot', -, -⟩
    · cases haccepted.symm.trans hrefused
    · rcases h.of_read hwaits (.inl hhops) hshort hcrash with haccepts | ⟨-, -, hagrees⟩
      · exact absurd hsigned haccepts.not_falselySigned
      · rw [hread, readProof_of_agrees hagrees]
    · rcases h.of_read hwaits (.inl hhops) hshort hcrash with haccepts | ⟨-, hsigned, -⟩
      · exact absurd haccepts hnot
      · exact absurd hsigned hnot'
  · -- a proof that corrects the hop count must be accepted
    rw [heq] at hrefused ⊢
    have hshort := not_tooShort_of_mayRebalance hmay
    by_cases hcrash : l.Crashes
    · cases (checkProof_crashes (l := l.rebalancedBy env attempt proof) hshort hcrash).symm.trans
        hrefused
    rcases h.of_read hwaits (.inr hmay) hshort hcrash with haccepts | ⟨hmatch, -⟩
    · rcases checkProof_cases (l := l.rebalancedBy env attempt proof) env attempt hwaits.1 hshort
        hcrash with ⟨-, haccepted, -⟩ | ⟨hsigned, -⟩ | ⟨hnot, -⟩
      · cases haccepted.symm.trans hrefused
      · exact absurd hsigned haccepts.not_falselySigned
      · exact absurd haccepts hnot
    · exact absurd hmatch hhops

lemma harmless_of_same (h : ∀ err, (l.validateLinkProofLocked env attempt proof).2 = .refused err →
      SameSession l (l.validateLinkProofLocked env attempt proof).1) :
    Harmless env attempt l proof := by
  by_cases hwaits : l.Waits
  swap
  · rcases not_and_or.1 hwaits with hinit | hwaiting
    · exact .not_initiator (Bool.eq_false_iff.2 hinit)
    · exact .not_waiting (not_or.1 hwaiting)
  by_cases hshort : proof.TooShort
  · exact .too_short hshort
  by_cases hcrash : l.Crashes
  · exact .crashes hcrash
  rcases validate_cases env attempt proof hwaits with
    ⟨hhops, hmay, -⟩ | ⟨hhops, heq⟩ | ⟨hhops, hmay, heq⟩
  · exact .wrong_hops hhops hmay
  · rw [heq] at h
    rcases checkProof_cases env attempt hwaits.1 hshort hcrash with
      ⟨haccepts, -⟩ | ⟨hsigned, hread⟩ | ⟨-, -, ⟨err, hrefused⟩, hstatus⟩
    · exact .accepts haccepts
    · rw [hread] at h
      exact .agrees hhops hsigned (agrees_of_same (h _ rfl))
    · exact absurd (h err hrefused) (not_same_of_status hwaits hstatus)
  · rw [heq] at h
    rcases checkProof_cases (l := l.rebalancedBy env attempt proof) env attempt hwaits.1 hshort
      hcrash with ⟨haccepts, -⟩ | ⟨hsigned, hread⟩ | ⟨-, -, ⟨err, hrefused⟩, hstatus⟩
    · exact .accepts haccepts
    · -- the hop count that is expected has changed
      rw [hread] at h
      exact absurd (.inr (h _ rfl).expectedHops) hhops
    · exact absurd (h err hrefused) (not_same_of_status hwaits hstatus)

end

/-- **A proof that fails changes nothing, so that every later proof does what it would have done
without it, if and only if the proof is harmless.** -/
theorem failed_proof_harmless_iff (env : ProofSurroundings) (attempt : ProofAttempt)
    (l : PendingLink) (proof : LinkProof) :
    (∀ err, (l.validateLinkProofLocked env attempt proof).2 = .refused err →
        SameSession l (l.validateLinkProofLocked env attempt proof).1 ∧
        ∀ attempt' proof',
          (l.validateLinkProofLocked env attempt proof).1.validateLinkProofLocked env attempt'
              proof' =
            l.validateLinkProofLocked env attempt' proof') ↔
      Harmless env attempt l proof := by
  constructor
  · intro h
    exact harmless_of_same fun err hrefused => (h err hrefused).1
  · intro h err hrefused
    rw [h.validate_eq hrefused]
    exact ⟨⟨rfl, rfl, rfl, rfl, rfl, rfl, rfl, rfl, rfl, rfl⟩, fun _ _ => rfl⟩

/-! ## A forged proof -/

def toySurroundings : ProofSurroundings where
  verify := fun _ _ signature => signature.head? = some 1
  deriveSharedSecret := fun _ peerPub => .ok peerPub
  deriveKey := fun _ _ length => .ok (.replicate length 9)
  isLocalClientInterface := fun _ => false
  linkPathRebalanceAllowed := true
  rebalancePathHops := fun _ _ _ => false

def quietAttempt : ProofAttempt := ⟨0, fun _ => none, false, none⟩

def waitingLink : PendingLink where
  initiator := true
  status := .pending
  teardownReason := .pending
  linkID := .replicate 16 5
  expectedHops := 128
  rebalanced := none
  hasTransport := true
  destination := some ⟨.replicate 16 7, some (.replicate 64 8)⟩
  prv := some (.replicate 32 6)
  mtu := 500
  mdu := 431
  mode := modeAES256CBC
  peerPub := []
  peerSigPub := []
  sharedKey := []
  derivedKey := []
  hmacKey := []
  sessionKey := []

def forgedProof : LinkProof := ⟨0, .replicate 96 0 ++ [0xE0, 1, 0], none⟩

def genuineProof : LinkProof := ⟨0, .replicate 96 1, none⟩

def deceivedLink : PendingLink :=
  (waitingLink.validateLinkProofLocked toySurroundings quietAttempt forgedProof).1

/-- **A forged proof is refused and yet changes the MTU, the mode and the key of the peer; the
genuine proof, which alone makes the link active, then closes it.** -/
theorem forgedProof_breaks_link :
    (waitingLink.validateLinkProofLocked toySurroundings quietAttempt forgedProof).2 =
        .refused "link proof signature validation failed" ∧
      deceivedLink.mtu = 256 ∧ deceivedLink.mode = 7 ∧
      deceivedLink.peerPub ≠ waitingLink.peerPub ∧
      (waitingLink.validateLinkProofLocked toySurroundings quietAttempt genuineProof).2 =
        .accepted ∧
      (waitingLink.validateLinkProofLocked toySurroundings quietAttempt genuineProof).1.status =
        .active ∧
      (deceivedLink.validateLinkProofLocked toySurroundings quietAttempt genuineProof).2 =
        .refused "handshake failed: invalid link mode: 7" ∧
      (deceivedLink.validateLinkProofLocked toySurroundings quietAttempt genuineProof).1.status =
        .closed := by
  decide +kernel

end PendingLink

end Reticulum

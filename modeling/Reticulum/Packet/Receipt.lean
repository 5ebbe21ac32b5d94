import Reticulum.Core.Run
import Reticulum.Packet.Def

/-!
# Receipts of packets

A **receipt** belongs to a packet that was sent and waits for its proof (`pkg/packet/receipt.go`).
A proof makes it *delivered*, a timeout *failed* or *culled*, and cancelling *culled*.  A proof is
validated in two sections, between which other calls may take the lock; so a call whose proof is
valid waits among `validated` until it concludes.

A timeout check and a cancellation only conclude a receipt that is still *sent*.  The conclusion of
a proof does not look: **`receipt_final_iff`**.
-/

namespace Reticulum

inductive ReceiptStatus where
  | failed
  | sent
  | delivered
  | culled
deriving DecidableEq

/-- A receipt.  An identity is its public key, and a callback is a number. -/
structure Packet.Receipt where
  hash : Bytes
  sentAt : ℤ
  proved : Bool
  status : ReceiptStatus
  timeout : ℤ
  concludedAt : Option ℤ
  proofPacket : Option Packet
  deliveryCallback : Option ℕ
  timeoutCallback : Option ℕ
  destinationIdent : Option Bytes
deriving DecidableEq

structure Verifiers where
  /-- public key, message, signature -/
  verify : Bytes → Bytes → Bytes → Bool
  /-- what a link does to validate a signature of a message, if it can -/
  linkValidate : ℕ → Option (Bytes → Bytes → Bool)

variable (pr : Packet.Receipt)

namespace Packet.Receipt

def hashLength : ℕ := 32
def sigLength : ℕ := 64
def explicitLength : ℕ := hashLength + sigLength
def implicitLength : ℕ := sigLength

def validateLinkSignature (env : Verifiers) (pr : Receipt) (signature : Bytes) (link : ℕ) : Bool :=
  match env.linkValidate link with
  | some validate => validate signature pr.hash
  | none => false

def validateLinkProof (env : Verifiers) (pr : Receipt) (proof : Bytes) (link : ℕ) : Bool :=
  if proof.length = explicitLength then
    let proofHash := proof.take hashLength
    let signature := (proof.drop hashLength).take sigLength
    if proofHash ≠ pr.hash then false else validateLinkSignature env pr signature link
  else false

def validateProof (env : Verifiers) (pr : Receipt) (proof : Bytes) : Bool :=
  if proof.length = explicitLength then
    let proofHash := proof.take hashLength
    let signature := (proof.drop hashLength).take sigLength
    if proofHash ≠ pr.hash then false
    else
      match pr.destinationIdent with
      | none => false
      | some ident => env.verify ident pr.hash signature
  else if proof.length = implicitLength then
    match pr.destinationIdent with
    | none => false
    | some ident => env.verify ident pr.hash (proof.take sigLength)
  else false

/-- The second section of both: concludes the receipt, and returns the callback. -/
def conclude (now : ℤ) (proofPacket : Option Packet) : Receipt × Option ℕ :=
  ({ pr with
      status := .delivered
      proved := true
      concludedAt := some now
      proofPacket },
    pr.deliveryCallback)

def checkTimeout (now : ℤ) : Receipt × Option ℕ :=
  if pr.status ≠ .sent then (pr, none)
  else if now - pr.sentAt ≤ pr.timeout then (pr, none)
  else
    ({ pr with
        status := if pr.timeout < 0 then .culled else .failed
        concludedAt := some now },
      pr.timeoutCallback)

def cancel (now : ℤ) : Receipt :=
  if pr.status = .sent then { pr with status := .culled, concludedAt := some now } else pr

end Packet.Receipt

open Packet

/-! ## Interleavings -/

inductive Invocation where
  | delivery (callback : ℕ)
  | timeout (callback : ℕ)
deriving DecidableEq

/-- A receipt in use: the calls that have found their proof valid and not yet concluded the receipt,
and a record of the changes of status and of the callbacks. -/
structure ReceiptRun where
  receipt : Receipt
  validated : List (Option Packet)
  changes : List (ReceiptStatus × ReceiptStatus)
  invoked : List Invocation
deriving DecidableEq

inductive ReceiptEvent where
  | validateProof (proof : Bytes) (proofPacket : Option Packet)
  | validateLinkProof (proof : Bytes) (link : ℕ) (proofPacket : Option Packet)
  /-- the call at place `i` among the validated ones concludes -/
  | conclude (i : ℕ) (now : ℤ)
  | checkTimeout (now : ℤ)
  | cancel (now : ℤ)
  | setTimeout (timeout : ℤ)
  | setDeliveryCallback (callback : Option ℕ)
  | setTimeoutCallback (callback : Option ℕ)
  | setDestinationIdentity (ident : Option Bytes)
deriving DecidableEq

namespace ReceiptRun

def become (s : ReceiptRun) (pr : Receipt) (invoked : List Invocation) : ReceiptRun :=
  { s with
    receipt := pr
    changes :=
      if pr.status = s.receipt.status then s.changes
      else s.changes ++ [(s.receipt.status, pr.status)]
    invoked := s.invoked ++ invoked }

def step (env : Verifiers) (s : ReceiptRun) : ReceiptEvent → ReceiptRun
  | .validateProof proof proofPacket =>
    if s.receipt.validateProof env proof then { s with validated := s.validated ++ [proofPacket] }
    else s
  | .validateLinkProof proof link proofPacket =>
    if s.receipt.validateLinkProof env proof link then
      { s with validated := s.validated ++ [proofPacket] }
    else s
  | .conclude i now =>
    match s.validated[i]? with
    | none => s
    | some proofPacket =>
      let (pr, callback) := s.receipt.conclude now proofPacket
      { s with validated := s.validated.eraseIdx i }.become pr (callback.toList.map .delivery)
  | .checkTimeout now =>
    let (pr, callback) := s.receipt.checkTimeout now
    s.become pr (callback.toList.map .timeout)
  | .cancel now => s.become (s.receipt.cancel now) []
  | .setTimeout timeout => { s with receipt := { s.receipt with timeout } }
  | .setDeliveryCallback callback =>
    { s with receipt := { s.receipt with deliveryCallback := callback } }
  | .setTimeoutCallback callback =>
    { s with receipt := { s.receipt with timeoutCallback := callback } }
  | .setDestinationIdentity ident =>
    { s with receipt := { s.receipt with destinationIdent := ident } }

def fresh : ReceiptRun where
  receipt := { pr with status := .sent }
  validated := []
  changes := []
  invoked := []

def Final (s : ReceiptRun) : Prop := s.changes.length ≤ 1 ∧ s.invoked.length ≤ 1

/-- A proof is concluded in time if the receipt is still *sent*; or if it is *delivered* already and
no callback is started for a second time. -/
def InTime (s : ReceiptRun) : ReceiptEvent → Prop
  | .conclude i _ =>
    s.validated[i]? = none ∨ s.receipt.status = .sent ∨
      (s.receipt.status = .delivered ∧ (s.receipt.deliveryCallback = none ∨ s.invoked = []))
  | _ => True

/-! ## Finality -/

/-- The record of a receipt: nothing has happened while it is *sent*, and one change is all that has
led to any other status. -/
structure Inv (s : ReceiptRun) : Prop where
  of_sent : s.receipt.status = .sent → s.changes = [] ∧ s.invoked = []
  of_ne : s.receipt.status ≠ .sent → s.changes.length = 1 ∧ s.invoked.length ≤ 1

variable {s : ReceiptRun}

lemma Inv.final (h : s.Inv) : s.Final := by
  by_cases hs : s.receipt.status = .sent
  · obtain ⟨hchanges, hinvoked⟩ := h.of_sent hs
    simp [Final, hchanges, hinvoked]
  · obtain ⟨hchanges, hinvoked⟩ := h.of_ne hs
    exact ⟨hchanges.le, hinvoked⟩

lemma Inv.fresh : (fresh pr).Inv where
  of_sent _ := ⟨rfl, rfl⟩
  of_ne h := absurd rfl h

lemma Inv.of_same {s' : ReceiptRun} (h : s.Inv) (hstatus : s'.receipt.status = s.receipt.status)
    (hchanges : s'.changes = s.changes) (hinvoked : s'.invoked = s.invoked) : s'.Inv where
  of_sent hs := by
    rw [hchanges, hinvoked]
    exact h.of_sent (hstatus ▸ hs)
  of_ne hs := by
    rw [hchanges, hinvoked]
    exact h.of_ne (hstatus ▸ hs)

lemma Inv.leave (h : s.Inv) (hs : s.receipt.status = .sent) {pr : Receipt} (hpr : pr.status ≠ .sent)
    {invoked : List Invocation} (hone : invoked.length ≤ 1) : (s.become pr invoked).Inv := by
  obtain ⟨hchanges, hinvoked⟩ := h.of_sent hs
  refine ⟨fun hsent => absurd hsent hpr, fun _ => ?_⟩
  simp [become, hs, hpr, hchanges, hinvoked, hone]

lemma Inv.become_self (h : s.Inv) : (s.become s.receipt []).Inv := by
  refine h.of_same rfl ?_ ?_
  · simp [become]
  · simp [become]

lemma Inv.step {env : Verifiers} {e : ReceiptEvent} (h : s.Inv) (he : s.InTime e) :
    (s.step env e).Inv := by
  cases e with
  | validateProof proof proofPacket | validateLinkProof proof link proofPacket =>
    simp only [ReceiptRun.step]
    split
    · exact h.of_same rfl rfl rfl
    · exact h
  | conclude i now =>
    cases hv : s.validated[i]? with
    | none => simpa [ReceiptRun.step, hv] using h
    | some proofPacket =>
      simp only [ReceiptRun.step, hv, Receipt.conclude]
      have h' : ({ s with validated := s.validated.eraseIdx i } : ReceiptRun).Inv :=
        h.of_same rfl rfl rfl
      simp only [InTime, hv, reduceCtorEq, false_or] at he
      rcases he with hsent | ⟨hdelivered, hquiet⟩
      · refine h'.leave hsent (by nofun) ?_
        cases s.receipt.deliveryCallback <;> simp
      · -- the status is what it was, and there is at most one callback in all
        obtain ⟨hchanges, hinvoked⟩ := h.of_ne (by rw [hdelivered]; nofun)
        refine ⟨by nofun, fun _ => ⟨?_, ?_⟩⟩
        · simpa [become, hdelivered] using hchanges
        · rcases hquiet with hnone | hnil
          · simpa [become, hnone] using hinvoked
          · cases s.receipt.deliveryCallback <;> simp [become, hnil]
  | checkTimeout now =>
    simp only [ReceiptRun.step, Receipt.checkTimeout]
    by_cases hsent : s.receipt.status = .sent
    · rw [if_neg (not_not.2 hsent)]
      split
      · exact h.become_self
      · refine h.leave hsent ?_ ?_
        · split <;> nofun
        · cases s.receipt.timeoutCallback <;> simp
    · rw [if_pos hsent]
      exact h.become_self
  | cancel now =>
    simp only [ReceiptRun.step, Receipt.cancel]
    split
    · rename_i hsent
      exact h.leave hsent (by nofun) (by simp)
    · exact h.become_self
  | setTimeout timeout | setDeliveryCallback callback | setTimeoutCallback callback
  | setDestinationIdentity ident => exact h.of_same rfl rfl rfl

lemma Inv.not_final {env : Verifiers} {e : ReceiptEvent} (h : s.Inv) (he : ¬ s.InTime e) :
    ¬ (s.step env e).Final := by
  cases e with
  | conclude i now =>
    simp only [InTime, not_or, not_and] at he
    obtain ⟨hv, hsent, hlate⟩ := he
    obtain ⟨hchanges, hinvoked⟩ := h.of_ne hsent
    cases hv' : s.validated[i]? with
    | none => exact absurd hv' hv
    | some proofPacket =>
      simp only [ReceiptRun.step, hv', Receipt.conclude]
      rintro ⟨hfinal, honce⟩
      by_cases hdelivered : s.receipt.status = .delivered
      · obtain ⟨hcb, hne⟩ := hlate hdelivered
        cases hcb' : s.receipt.deliveryCallback with
        | none => exact hcb hcb'
        | some callback =>
          simp [become, hcb'] at honce
          exact hne honce
      · simp [become, Ne.symm hdelivered, hchanges] at hfinal
  | _ => exact absurd trivial he

/-- **The receipt of a packet is final** — its status changes at most once, and one callback is
started at most once — in every state of a run *exactly* if every proof of the run is concluded in
time. -/
theorem receipt_final_iff (env : Verifiers) (pr : Receipt) (es : List ReceiptEvent) :
    Run.Always (step env) Final (fresh pr) es ↔ Run.Along (step env) InTime (fresh pr) es := by
  refine Run.always_iff_along (I := Inv) ?_ ?_ ?_ (.fresh pr)
  · intro s h
    exact h.final
  · intro s e h he
    exact h.step he
  · intro s e h he
    exact h.not_final he

def waiting : Receipt where
  hash := .replicate 32 0xAA
  sentAt := 0
  proved := false
  status := .sent
  timeout := 10
  concludedAt := none
  proofPacket := none
  deliveryCallback := some 0
  timeoutCallback := some 1
  destinationIdent := some []

def lateProof : List ReceiptEvent :=
  [.checkTimeout 11, .validateProof (.replicate 96 0xAA) none, .conclude 0 12]

/-- A proof after the timeout makes a failed receipt a delivered one, and starts the second
callback. -/
theorem lateProof_not_final :
    let env : Verifiers := ⟨fun _ _ _ => true, fun _ => none⟩
    let s := Run.exec (step env) (fresh waiting) lateProof
    s.changes = [(.sent, .failed), (.failed, .delivered)] ∧
      s.invoked = [.timeout 1, .delivery 0] ∧
      ¬ Run.Always (step env) Final (fresh waiting) lateProof := by
  intro env s
  have hchanges : s.changes = [(.sent, .failed), (.failed, .delivered)] := by decide
  refine ⟨hchanges, by decide, ?_⟩
  intro h
  have hone : s.changes.length ≤ 1 := h.last.1
  exact absurd hone (by decide)

end ReceiptRun

end Reticulum

import Reticulum.Core.Run
import Reticulum.Link.OutgoingResource

/-!
# What the success of `SendResource` means

`SendResource` is to return without an error only if the receiver has proved the last segment
(`ProvenDelivery`).  But the channel on which it waits carries no result: it is signalled also when
the receiver rejects the resource, when a hashmap update has nothing to send, when the next segment
fails, and when the link is closed (`rejectedRun_unproven`).  There is no other way:
**`provenDelivery_of_undisturbed`**.
-/

namespace Reticulum

open List

/-! ## The property -/

def ProofReceipt.Matches (sha : Sha256) (p : ProofReceipt) : Prop :=
  p.resource.hash = p.data.take Sha256.size ∧
    p.resource.expectedProof sha = some ((p.data.drop Sha256.size).take Sha256.size)

def ProofReceipt.IsLast (p : ProofReceipt) : Prop :=
  ¬ (p.resource.split = true ∧ p.resource.segmentIndex < p.resource.totalSegments)

namespace OutgoingLink

def Proven (sha : Sha256) (l : OutgoingLink) (res : ℕ) : Prop :=
  ∃ p ∈ l.proofs, p.res = res ∧ p.Matches sha ∧ p.IsLast

/-- **Success means proven delivery.** -/
def ProvenDelivery (sha : Sha256) (l : OutgoingLink) : Prop :=
  ∀ r ∈ l.returned, r.2 = .ok () → l.Proven sha r.1

def runsOutOfHashes (l : OutgoingLink) (out receiverMinPart : ℕ) (anchorHash : Option Bytes) :
    Bool :=
  match anchorHash with
  | none => false
  | some anchor =>
    match (l.heap out).chooseHashmapUpdateSegment l.mdu anchor receiverMinPart with
    | none => false
    | some (segment, _) => decide ((l.heap out).hashmapSegment l.mdu segment = [])

/-- The transfer is not disturbed by a step:

* the resource that was advertised has parts;
* the receiver does not reject it, and does not ask for map hashes beyond the last;
* the next segment can be prepared and advertised;
* the resource whose proof is acted upon is still the current one;
* the link is only closed when no `SendResource` is under way. -/
def undisturbed (sha : Sha256) (l : OutgoingLink) : Event → Bool
  | .senderStep _ =>
    match l.sender with
    | .advertised res _ => decide ((l.heap res).segments ≠ 0)
    | _ => true
  | .handlerStep a =>
    match l.handler with
    | .rejectFor out resourceHash => decide ((l.heap out).hash ≠ resourceHash)
    | .requestFor out receiverMinPart anchorHash =>
      !l.runsOutOfHashes out receiverMinPart anchorHash
    | .advancing out =>
      ((l.heap out).prepareNextOutboundSegment sha (some a.codec) a.random l.sdu).isOk
    | .nextPrepared out => decide (l.outgoingRes = some out)
    | .nextCurrent _ => decide (a.sent = none)
    | .signalling (.proven out) => decide (l.outgoingRes = some out)
    | _ => true
  | .close => decide (l.sender = .idle)
  | _ => true

/-! ## The invariant -/

/-- The resource that `SendResource` has made the current one, and the channel it waits on. -/
def target (l : OutgoingLink) : Option (ℕ × ℕ) :=
  match l.sender with
  | .advertising res chan | .advertised res chan | .empty res chan | .waiting res chan =>
    some (res, chan)
  | _ => none

/-- What holds throughout an undisturbed run.  The completion channel belongs to the `SendResource`
under way and to the current resource, and it is only signalled for a proof. -/
structure Inv (sha : Sha256) (l : OutgoingLink) : Prop where
  delivered : l.ProvenDelivery sha
  current : ∀ chan, l.outgoingResCompleteChan = some chan →
    ∃ res, l.outgoingRes = some res ∧ l.target = some (res, chan)
  signalled : ∀ res chan, l.target = some (res, chan) → chan ∈ l.signalled → l.Proven sha res
  pending : ∀ chan, l.outgoingResCompleteChan = some chan → chan ∉ l.signalled
  fresh : ∀ chan ∈ l.signalled, chan < l.chans
  target_lt : ∀ res chan, l.target = some (res, chan) → chan < l.chans
  cause : ∀ cause, l.handler = .signalling cause → ∃ out, cause = .proven out ∧ l.Proven sha out
  notEmpty : ∀ res chan, l.sender ≠ .empty res chan
  closing : l.closing = true → l.status = .closed ∧ l.sender = .idle

section Steps

variable {sha : Sha256} {l : OutgoingLink}

lemma Proven.of_subset {l' : OutgoingLink} {res : ℕ} (h : l.Proven sha res)
    (hsub : l.proofs ⊆ l'.proofs) : l'.Proven sha res := by
  obtain ⟨p, hp, hproven⟩ := h
  exact ⟨p, hsub hp, hproven⟩

lemma Inv.init (heap : ℕ → Resource) (sdu mdu : ℤ) : Inv sha (init heap sdu mdu) := by
  constructor <;> simp [OutgoingLink.init, ProvenDelivery, target]

section

variable (h : Inv sha l)
include h

lemma Inv.chan_eq_none (htarget : l.target = none) : l.outgoingResCompleteChan = none := by
  cases hchan : l.outgoingResCompleteChan with
  | none => rfl
  | some chan =>
    obtain ⟨res, -, hres⟩ := h.current chan hchan
    rw [htarget] at hres
    cases hres

lemma Inv.handler (heap : ℕ → Resource) (minPart : ℕ) {proofs : List ProofReceipt}
    (phase : HandlerPhase) (hsub : l.proofs ⊆ proofs) (hcause : ∀ cause, phase = .signalling cause →
      ∃ out, cause = .proven out ∧ ({ l with proofs := proofs } : OutgoingLink).Proven sha out) :
    Inv sha { l with
      heap := heap, outgoingReceiverMinPart := minPart, proofs := proofs, handler := phase } :=
  { h with
    delivered := fun r hr hok => (h.delivered r hr hok).of_subset hsub
    signalled := fun res chan ht hs => (h.signalled res chan ht hs).of_subset hsub
    cause := hcause }

lemma Inv.handler_quiet {phase : HandlerPhase}
    (hphase : ∀ cause, phase ≠ .signalling cause) : Inv sha { l with handler := phase } :=
  h.handler l.heap l.outgoingReceiverMinPart phase (.refl _) fun cause hc =>
    absurd hc (hphase cause)

lemma Inv.signal
    (hproven : ∀ chan res, l.outgoingResCompleteChan = some chan → l.outgoingRes = some res →
      l.Proven sha res) : Inv sha l.signalOutgoingResourceComplete := { h with
  current := nofun
  signalled := fun res chan ht hs => by
    obtain hnew | hold := mem_append.1 hs
    · rw [Option.mem_toList] at hnew
      obtain ⟨res', hres', ht'⟩ := h.current chan hnew
      obtain rfl : res = res' := by
        have := ht.symm.trans ht'
        simp_all
      exact hproven chan res hnew hres'
    · exact h.signalled res chan ht hold
  pending := nofun
  fresh := fun chan hs => by
    obtain hnew | hold := mem_append.1 hs
    · rw [Option.mem_toList] at hnew
      obtain ⟨res, -, ht⟩ := h.current chan hnew
      exact h.target_lt res chan ht
    · exact h.fresh chan hold }

lemma Inv.abandon : Inv sha l.abandon := { h with
  current := nofun
  pending := nofun }

lemma Inv.finish (hchan : l.outgoingResCompleteChan = none) {res : ℕ} {result : Except String Unit}
    (hresult : result = .ok () → l.Proven sha res) : Inv sha (l.finish res result) := { h with
  delivered := fun r hr hok => by
    obtain hold | hnew := mem_append.1 hr
    · exact h.delivered r hold hok
    · obtain rfl := mem_singleton.1 hnew
      exact hresult hok
  current := fun chan hc => by
    rw [OutgoingLink.finish, hchan] at hc
    cases hc
  signalled := nofun
  target_lt := nofun
  notEmpty := nofun
  closing := fun hc => ⟨(h.closing hc).1, rfl⟩ }

lemma Inv.sender (heap : ℕ → Resource) {phase : SendPhase}
    (htarget : ({ l with sender := phase } : OutgoingLink).target = l.target)
    (hphase : ∀ res chan, phase ≠ .empty res chan) (hclosing : l.closing = false) :
    Inv sha { l with heap := heap, sender := phase } := { h with
  current := fun chan hc => by
    obtain ⟨res, hres, ht⟩ := h.current chan hc
    exact ⟨res, hres, htarget.trans ht⟩
  signalled := fun res chan ht => h.signalled res chan (htarget.symm.trans ht)
  target_lt := fun res chan ht => h.target_lt res chan (htarget.symm.trans ht)
  notEmpty := hphase
  closing := fun hc => by
    rw [hclosing] at hc
    cases hc }

lemma Inv.closing_eq_false (hsender : l.sender ≠ .idle) : l.closing = false := by
  by_contra hc
  rw [Bool.not_eq_false] at hc
  exact hsender (h.closing hc).2

lemma Inv.register (res : ℕ) (hclosing : l.closing = false) :
    Inv sha { l with
      outgoingRes := some res
      outgoingReceiverMinPart := 0
      outgoingResCompleteChan := some l.chans
      chans := l.chans + 1
      sender := .advertising res l.chans } := { h with
  current := fun chan hc => ⟨res, rfl, by rw [← Option.some.inj hc]; rfl⟩
  signalled := fun res' chan ht hs => by
    obtain ⟨-, rfl⟩ := Prod.mk.inj (Option.some.inj ht)
    exact absurd (h.fresh _ hs) (lt_irrefl _)
  pending := fun chan hc hs => by
    obtain rfl := Option.some.inj hc
    exact absurd (h.fresh _ hs) (lt_irrefl _)
  fresh := fun chan hs => (h.fresh chan hs).trans (Nat.lt_succ_self _)
  target_lt := fun res' chan ht => by
    obtain ⟨-, rfl⟩ := Prod.mk.inj (Option.some.inj ht)
    exact Nat.lt_succ_self _
  notEmpty := nofun
  closing := fun hc => by
    rw [hclosing] at hc
    cases hc }

/-! ## Every step keeps the invariant -/

lemma Inv.sendResource (res : ℕ) : Inv sha (l.sendResource res) := by
  rw [OutgoingLink.sendResource]
  cases hsender : l.sender with
  | idle =>
    have htarget : l.target = none := by simp [target, hsender]
    split_ifs with hactive
    · exact h.finish (h.chan_eq_none htarget) nofun
    · rw [not_not] at hactive
      have hclosing : l.closing = false := by
        by_contra hc
        rw [Bool.not_eq_false] at hc
        have := (h.closing hc).1
        rw [hactive] at this
        cases this
      exact h.sender l.heap (htarget ▸ rfl) nofun hclosing
  | _ => exact h

lemma Inv.senderStep {a : OutgoingAnswer} (he : undisturbed sha l (.senderStep a)) :
    Inv sha (l.senderStep sha a) := by
  rw [OutgoingLink.senderStep]
  cases hsender : l.sender with
  | idle => exact h
  | preparing res =>
    have htarget : l.target = none := by simp [target, hsender]
    simp only
    cases (l.heap res).prepareOutboundForLink sha (some a.codec) a.random l.sdu with
    | error err => exact h.finish (h.chan_eq_none htarget) nofun
    | ok r => exact h.sender _ (htarget ▸ rfl) nofun (h.closing_eq_false (by simp [hsender]))
  | prepared res => exact h.register res (h.closing_eq_false (by simp [hsender]))
  | advertising res chan =>
    have htarget : l.target = some (res, chan) := by simp [target, hsender]
    cases a.sent with
    | some err => exact h.abandon.finish rfl nofun
    | none => exact h.sender _ (htarget ▸ rfl) nofun (h.closing_eq_false (by simp [hsender]))
  | advertised res chan =>
    have htarget : l.target = some (res, chan) := by simp [target, hsender]
    have hparts : (l.heap res).segments ≠ 0 := by
      rw [undisturbed, hsender] at he
      exact of_decide_eq_true he
    simp only [if_neg hparts]
    exact h.sender _ (htarget ▸ rfl) nofun (h.closing_eq_false (by simp [hsender]))
  | empty res chan => exact absurd hsender (h.notEmpty res chan)
  | waiting res chan => exact h

lemma Inv.wake : Inv sha l.wake := by
  rw [OutgoingLink.wake]
  cases hsender : l.sender with
  | waiting res chan =>
    have htarget : l.target = some (res, chan) := by simp [target, hsender]
    simp only
    split_ifs with hs
    · -- the channel was taken when it was signalled
      have hchan : l.outgoingResCompleteChan = none := by
        cases hc : l.outgoingResCompleteChan with
        | none => rfl
        | some chan' =>
          obtain ⟨res', -, ht⟩ := h.current chan' hc
          rw [htarget] at ht
          obtain ⟨-, rfl⟩ := Prod.mk.inj (Option.some.inj ht)
          exact absurd hs (h.pending chan hc)
      exact h.finish hchan fun _ => h.signalled res chan htarget hs
    · exact h
  | _ => exact h

lemma Inv.timeout : Inv sha l.timeout := by
  rw [OutgoingLink.timeout]
  cases l.sender with
  | waiting res chan => exact h.abandon.finish rfl nofun
  | _ => exact h

lemma Inv.receive (p : OutgoingPacket) : Inv sha (l.receive p) := by
  have hquiet {phase : HandlerPhase} (hphase : ∀ cause, phase ≠ .signalling cause) {q : Prop}
      [Decidable q] : Inv sha (if q then l else { l with handler := phase }) := by
    split_ifs
    · exact h
    · exact h.handler_quiet hphase
  rw [OutgoingLink.receive]
  split_ifs
  · exact h
  split
  · exact h
  · cases p with
    | proof data | reject plaintext | request plaintext => exact hquiet (by nofun)

lemma Inv.checkProof (out : ℕ) (data : Bytes) : Inv sha (l.checkProof sha out data) := by
  have hsub : l.proofs ⊆ l.proofs ++ [⟨out, l.heap out, data⟩] := subset_append_left _ _
  rw [OutgoingLink.checkProof]
  split_ifs with hbad hmore
  · exact h.handler l.heap _ _ hsub nofun
  · exact h.handler l.heap _ _ hsub nofun
  · refine h.handler l.heap _ _ hsub ?_
    intro cause hc
    obtain rfl := HandlerPhase.signalling.inj hc
    push Not at hbad
    exact ⟨out, rfl, _, mem_append_right _ (mem_singleton_self _), rfl, hbad, hmore⟩

lemma Inv.dispatch (plaintext : Bytes) :
    Inv sha (l.dispatchOutgoingResourceRequests plaintext) := by
  rw [dispatchOutgoingResourceRequests]
  split
  · split_ifs
    · exact h.handler_quiet nofun
    · exact h.handler_quiet nofun
  · exact h.handler_quiet nofun

lemma Inv.sendResourceHashmapUpdate {out receiverMinPart : ℕ} {anchor : Bytes}
    (sent : Option String) (he : l.runsOutOfHashes out receiverMinPart (some anchor) = false) :
    Inv sha (l.sendResourceHashmapUpdate out anchor receiverMinPart sent) := by
  rw [OutgoingLink.sendResourceHashmapUpdate]
  cases hchoose : (l.heap out).chooseHashmapUpdateSegment l.mdu anchor receiverMinPart with
  | none => exact h.handler_quiet nofun
  | some chosen =>
    have hsegment : (l.heap out).hashmapSegment l.mdu chosen.1 ≠ [] := by
      simp only [runsOutOfHashes, hchoose] at he
      exact of_decide_eq_false he
    simp only [if_neg hsegment]
    cases sent with
    | some err | none => exact h.handler_quiet nofun

lemma Inv.handlerStep {a : OutgoingAnswer}
    (he : undisturbed sha l (.handlerStep a)) : Inv sha (l.handlerStep sha a) := by
  rw [undisturbed] at he
  rw [OutgoingLink.handlerStep]
  cases hhandler : l.handler with
  | idle => exact h
  | proofFor out data => exact h.checkProof out data
  | advancing out =>
    rw [hhandler] at he
    obtain ⟨r, hr⟩ := Fallible.exists_of_isOk he
    simp only [hr]
    exact h.handler _ _ _ (.refl _) nofun
  | nextPrepared out =>
    rw [hhandler] at he
    simp only
    rw [← of_decide_eq_true he]
    exact h.handler l.heap 0 _ (.refl _) nofun
  | nextCurrent out =>
    rw [hhandler] at he
    rw [of_decide_eq_true he]
    exact h.handler_quiet nofun
  | rejectFor out resourceHash =>
    rw [hhandler] at he
    simp only [if_neg (of_decide_eq_true he)]
    exact h.handler_quiet nofun
  | requestRead plaintext =>
    split_ifs
    · exact h.dispatch plaintext
    · exact h.handler_quiet nofun
  | requestFor out receiverMinPart anchorHash =>
    rw [hhandler] at he
    cases a.partsSent with
    | false => exact h.handler_quiet nofun
    | true =>
      cases anchorHash with
      | none => exact h.handler_quiet nofun
      | some anchor => exact h.sendResourceHashmapUpdate _ (by simpa using he)
  | hashmapSent out nextMin => exact h.handler l.heap _ _ (.refl _) nofun
  | signalling cause =>
    obtain ⟨out, rfl, hproven⟩ := h.cause cause hhandler
    rw [hhandler] at he
    refine (h.signal fun chan res _ hres => ?_).handler_quiet nofun
    obtain rfl := Option.some.inj ((of_decide_eq_true he).symm.trans hres)
    exact hproven

lemma Inv.closeSignal : Inv sha l.closeSignal := by
  rw [OutgoingLink.closeSignal]
  split_ifs with hclosing
  · have htarget : l.target = none := by simp [target, (h.closing hclosing).2]
    have hsignal : Inv sha l.signalOutgoingResourceComplete := h.signal fun chan res hchan _ => by
      rw [h.chan_eq_none htarget] at hchan
      cases hchan
    exact { hsignal with closing := nofun }
  · exact h

lemma Inv.close (he : undisturbed sha l .close) : Inv sha l.close := by
  rw [OutgoingLink.close]
  split_ifs
  · exact h
  · exact { h with closing := fun _ => ⟨rfl, of_decide_eq_true he⟩ }

lemma Inv.setStatus (status : LinkStatus) : Inv sha (l.setStatus status) := by
  rw [OutgoingLink.setStatus]
  split_ifs with hclosed
  · exact h
  · refine { h with closing := ?_ }
    intro hc
    exact absurd (.inl (h.closing hc).1) hclosed

/-- **Every undisturbed step keeps the invariant.** -/
lemma Inv.step {e : Event} (he : undisturbed sha l e) : Inv sha (l.step sha e) := by
  cases e with
  | sendResource res => exact h.sendResource res
  | senderStep a => exact h.senderStep he
  | wake => exact h.wake
  | timeout => exact h.timeout
  | packet p => exact h.receive p
  | handlerStep a => exact h.handlerStep he
  | close => exact h.close he
  | closeSignal => exact h.closeSignal
  | setStatus status => exact h.setStatus status

end

end Steps

/-- **What an undisturbed `SendResource` reports as sent was proved.** -/
theorem provenDelivery_of_undisturbed {sha : Sha256} {heap : ℕ → Resource} {sdu mdu : ℤ}
    {es : List Event}
    (h : Run.Along (step sha) (fun l e => undisturbed sha l e) (init heap sdu mdu) es) :
    Run.Always (step sha) (ProvenDelivery sha) (init heap sdu mdu) es :=
  (Run.always_of_along (fun _ _ hl he => hl.step he) (Inv.init heap sdu mdu) h).mono
    fun _ hl => hl.delivered

/-! ## A proof, a rejection and a closed link -/

def plainAnswer : OutgoingAnswer := ⟨⟨.ok, .ok⟩, .ok .zero, none, true, true⟩

def threeBytes : ℕ → Resource := fun _ => Resource.new Sha256.padded (.bytes [1, 2, 3]) false

def sendingRun : List Event :=
  .sendResource 0 :: replicate 4 (.senderStep plainAnswer)

def sentHash : Bytes := [1, 2, 3] ++ replicate 29 0

def provenRun : List Event :=
  sendingRun ++ [.packet (.proof (sentHash ++ [1, 2, 3, 1, 2, 3] ++ replicate 26 0)),
    .handlerStep plainAnswer, .handlerStep plainAnswer, .wake]

theorem provenDelivery_provenRun :
    (Run.exec (step Sha256.padded) (init threeBytes 464 431) provenRun).returned = [(0, .ok ())] ∧
      Run.Always (step Sha256.padded) (ProvenDelivery Sha256.padded) (init threeBytes 464 431)
        provenRun :=
  ⟨by decide +kernel, provenDelivery_of_undisturbed (by decide +kernel)⟩

def rejectedRun : List Event :=
  sendingRun ++ [.packet (.reject sentHash), .handlerStep plainAnswer, .handlerStep plainAnswer,
    .wake]

def closedRun : List Event := sendingRun ++ [.close, .closeSignal, .wake]

lemma not_provenDelivery {sha : Sha256} {l : OutgoingLink} {res : ℕ}
    (hreturned : (res, .ok ()) ∈ l.returned) (hproofs : l.proofs = []) :
    ¬ l.ProvenDelivery sha := by
  intro h
  obtain ⟨p, hp, -⟩ := h _ hreturned rfl
  rw [hproofs] at hp
  cases hp

/-- **`SendResource` reports a resource as sent that the receiver has rejected**, and one whose link
was closed before the receiver had any of it. -/
theorem rejectedRun_unproven :
    (Run.exec (step Sha256.padded) (init threeBytes 464 431) rejectedRun).returned = [(0, .ok ())] ∧
    ¬ Run.Always (step Sha256.padded) (ProvenDelivery Sha256.padded) (init threeBytes 464 431)
      rejectedRun ∧
    (Run.exec (step Sha256.padded) (init threeBytes 464 431) closedRun).returned = [(0, .ok ())] ∧
    ¬ Run.Always (step Sha256.padded) (ProvenDelivery Sha256.padded) (init threeBytes 464 431)
      closedRun := by
  have hrejected : (Run.exec (step .padded) (init threeBytes 464 431) rejectedRun).returned =
      [(0, .ok ())] := by decide +kernel
  have hclosed : (Run.exec (step .padded) (init threeBytes 464 431) closedRun).returned =
      [(0, .ok ())] := by decide +kernel
  refine ⟨hrejected, fun h => ?_, hclosed, fun h => ?_⟩
  · exact not_provenDelivery (hrejected ▸ mem_singleton_self _) (by decide +kernel) h.last
  · exact not_provenDelivery (hclosed ▸ mem_singleton_self _) (by decide +kernel) h.last

end OutgoingLink

end Reticulum

import Reticulum.Link.ProvenDelivery

/-!
# What a resource proof concludes

A proof is to conclude **the segment it proves**, and do nothing to another segment or to a resource
that is sent later.  `handleResourceProof` holds no lock while it works
(`pkg/link/link_resource.go`): it reads the current resource, its hash, the expected proof and the
segment each under a lock of its own, and then acts on **whatever channel is there**.

A `SendResource` that times out meanwhile makes room for another one, which the handler then
completes (**`lateProof_completes_later`**).  Otherwise proofs are conclusive
(**`conclusive_of_undisturbed`**).
-/

namespace Reticulum

open OutgoingLink Option

/-! ## The handler, section by section -/

/-- A proof that is being handled: the resource that was current, the data, and the segment with
whose hash they were compared. -/
structure PendingProof where
  out : ℕ
  data : Bytes
  index : UInt16
deriving DecidableEq

/-- Where the handler of proofs is, by the locked section it comes to next. -/
inductive ProofPhase where
  | idle
  | current (out : ℕ) (data : Bytes)
  | named (p : PendingProof)
  | checked (p : PendingProof)
  | splitRead (p : PendingProof)
  | indexRead (p : PendingProof) (segmentIndex : UInt16)
  | advancing (p : PendingProof)
  | advanced (p : PendingProof)
  | nextPrepared (p : PendingProof)
  | nextCurrent (p : PendingProof)
  | signalling (p : PendingProof)
  | sending (chan : ℕ)
deriving DecidableEq

/-- What was concluded from a proof: the resource that was advanced or completed, as it was just
before, the data of the proof, and the segment for which they had been found right. -/
structure Conclusion extends ProofReceipt where
  index : UInt16
deriving DecidableEq

/-- A link with a closer look at its handler of proofs.  `advanced` and `completed` record what was
concluded. -/
structure ProofHandling where
  link : OutgoingLink
  phase : ProofPhase
  advanced : List Conclusion
  completed : List Conclusion

def OutgoingLink.waiter (l : OutgoingLink) (chan : ℕ) : Option ℕ :=
  match l.target with
  | some (res, chan') => if chan' = chan then some res else none
  | none => none

namespace ProofHandling

def init (heap : ℕ → Resource) (sdu mdu : ℤ) : ProofHandling where
  link := .init heap sdu mdu
  phase := .idle
  advanced := []
  completed := []

def receive (s : ProofHandling) (data : Bytes) : ProofHandling :=
  if s.link.status = .closed ∨ s.phase ≠ .idle ∨ data.length < 2 * Sha256.size then s
  else
    match s.link.outgoingRes with
    | none => s
    | some out => { s with phase := .current out data }

def advance (s : ProofHandling) (p : PendingProof) : ProofHandling :=
  let r := s.link.heap p.out
  if !r.split ∨ r.totalSegments ≤ r.segmentIndex then { s with phase := .signalling p }
  else
    { s with
      link := { s.link with
        heap := Function.update s.link.heap p.out { r with segmentIndex := r.segmentIndex + 1 } }
      phase := .advanced p
      advanced := s.advanced ++ [⟨⟨p.out, r, p.data⟩, p.index⟩] }

/-- The locked section of `signalOutgoingResourceComplete`: the channel is taken, whoever waits on
it. -/
def takeChannel (s : ProofHandling) (p : PendingProof) : ProofHandling :=
  match s.link.outgoingResCompleteChan with
  | none => { s with link := s.link.abandon, phase := .idle }
  | some chan =>
    { s with
      link := s.link.abandon
      phase := .sending chan
      completed := s.completed ++ (s.link.waiter chan).toList.map fun res =>
        ⟨⟨res, s.link.heap res, p.data⟩, p.index⟩ }

def proofStep (sha : Sha256) (s : ProofHandling) (a : OutgoingAnswer) : ProofHandling :=
  match s.phase with
  | .idle => s
  | .current out data =>
    if (s.link.heap out).hash ≠ data.take Sha256.size then { s with phase := .idle }
    else { s with phase := .named ⟨out, data, (s.link.heap out).segmentIndex⟩ }
  | .named p =>
    if (s.link.heap p.out).expectedProof sha ≠
        some ((p.data.drop Sha256.size).take Sha256.size) then { s with phase := .idle }
    else { s with phase := .checked p }
  | .checked p =>
    if (s.link.heap p.out).split then { s with phase := .splitRead p }
    else { s with phase := .signalling p }
  | .splitRead p => { s with phase := .indexRead p (s.link.heap p.out).segmentIndex }
  | .indexRead p segmentIndex =>
    if segmentIndex < (s.link.heap p.out).totalSegments then { s with phase := .advancing p }
    else { s with phase := .signalling p }
  | .advancing p => s.advance p
  | .advanced p =>
    match (s.link.heap p.out).prepareOutboundForLink sha (some a.codec) a.random s.link.sdu with
    | .error _ => { s with phase := .signalling p }
    | .ok r =>
      { s with
        link := { s.link with heap := Function.update s.link.heap p.out r }
        phase := .nextPrepared p }
  | .nextPrepared p =>
    { s with
      link := { s.link with outgoingRes := some p.out, outgoingReceiverMinPart := 0 }
      phase := .nextCurrent p }
  | .nextCurrent p =>
    match a.sent with
    | some _ => { s with phase := .signalling p }
    | none => { s with phase := .idle }
  | .signalling p => s.takeChannel p
  | .sending chan =>
    { s with link := { s.link with signalled := chan :: s.link.signalled }, phase := .idle }

/-- What can happen.  `signal` is completion signalled by another caller: a rejection, a hashmap
update with nothing to send, a link that is closed. -/
inductive Event where
  | sendResource (res : ℕ)
  | senderStep (a : OutgoingAnswer)
  | wake
  | timeout
  | proof (data : Bytes)
  | proofStep (a : OutgoingAnswer)
  | signal
  | setStatus (status : LinkStatus)

def step (sha : Sha256) (s : ProofHandling) : Event → ProofHandling
  | .sendResource res => { s with link := s.link.sendResource res }
  | .senderStep a => { s with link := s.link.senderStep sha a }
  | .wake => { s with link := s.link.wake }
  | .timeout => { s with link := s.link.timeout }
  | .proof data => s.receive data
  | .proofStep a => s.proofStep sha a
  | .signal => { s with link := s.link.signalOutgoingResourceComplete }
  | .setStatus status => { s with link := { s.link with status } }

end ProofHandling

/-! ## The property -/

/-- The proof is one of the segment that was concluded: it has the hash of that segment and is the
one expected for it, and this was the segment when the hash was compared. -/
def Conclusion.Genuine (sha : Sha256) (c : Conclusion) : Prop :=
  c.Matches sha ∧ c.index = c.resource.segmentIndex

namespace ProofHandling

/-- **A proof only concludes the segment it proves**, and nothing else completes a resource. -/
structure Conclusive (sha : Sha256) (s : ProofHandling) : Prop where
  advanced : ∀ c ∈ s.advanced, c.Genuine sha
  completed : ∀ c ∈ s.completed, c.Genuine sha ∧ c.IsLast
  returned : ∀ r ∈ s.link.returned, r.2 = .ok () → ∃ c ∈ s.completed, c.res = r.1

def settled : ProofPhase → Bool
  | .idle | .sending _ => true
  | _ => false

/-- A transfer is not disturbed by a step:

* `SendResource` gives it up, because it could not be advertised or takes too long, only while no
  proof is being handled;
* the resource that was advertised has parts;
* the next segment can be prepared and advertised;
* others signal completion only if no one waits. -/
def undisturbed (sha : Sha256) (s : ProofHandling) : Event → Bool
  | .senderStep a =>
    match s.link.sender with
    | .advertising _ _ => a.sent.isNone || settled s.phase
    | .advertised res _ => decide ((s.link.heap res).segments ≠ 0)
    | _ => true
  | .timeout => settled s.phase
  | .proofStep a =>
    match s.phase with
    | .advanced p =>
      ((s.link.heap p.out).prepareOutboundForLink sha (some a.codec) a.random s.link.sdu).isOk
    | .nextCurrent _ => a.sent.isNone
    | _ => true
  | .signal => s.link.outgoingResCompleteChan.isNone
  | _ => true

/-! ## The invariant -/

def held : ProofPhase → Option ℕ
  | .idle | .sending _ => none
  | .current out _ => some out
  | .named p | .checked p | .splitRead p | .indexRead p _ | .advancing p | .advanced p
  | .nextPrepared p | .nextCurrent p | .signalling p => some p.out

def conclusion (heap : ℕ → Resource) (p : PendingProof) : Conclusion :=
  ⟨⟨p.out, heap p.out, p.data⟩, p.index⟩

def UpToDate (sha : Sha256) (heap : ℕ → Resource) : ProofPhase → Prop
  | .named p => (heap p.out).hash = p.data.take Sha256.size ∧ p.index = (heap p.out).segmentIndex
  | .checked p | .splitRead p | .advancing p => (conclusion heap p).Genuine sha
  | .indexRead p segmentIndex =>
    (conclusion heap p).Genuine sha ∧ segmentIndex = (heap p.out).segmentIndex
  | .signalling p => (conclusion heap p).Genuine sha ∧ (conclusion heap p).IsLast
  | _ => True

def Raised (s : ProofHandling) (chan : ℕ) : Prop :=
  chan ∈ s.link.signalled ∨ s.phase = .sending chan

/-- What holds throughout an undisturbed run: a resource is current exactly while its `SendResource`
waits, the handler has none but the current one in its hands, and a channel is raised for a
conclusion. -/
structure Inv (sha : Sha256) (s : ProofHandling) : Prop extends Conclusive sha s where
  current : ∀ res, s.link.outgoingRes = some res →
    ∃ chan, s.link.target = some (res, chan) ∧ s.link.outgoingResCompleteChan = some chan
  channel : ∀ chan, s.link.outgoingResCompleteChan = some chan → s.link.outgoingRes ≠ none
  holds : ∀ out, held s.phase = some out → s.link.outgoingRes = some out
  upToDate : UpToDate sha s.link.heap s.phase
  raised : ∀ res chan, s.link.target = some (res, chan) → s.Raised chan →
    ∃ c ∈ s.completed, c.res = res
  pending : ∀ chan, s.link.outgoingResCompleteChan = some chan → ¬ s.Raised chan
  fresh : ∀ chan, s.Raised chan → chan < s.link.chans
  target_lt : ∀ res chan, s.link.target = some (res, chan) → chan < s.link.chans
  notEmpty : ∀ res chan, s.link.sender ≠ .empty res chan

section Steps

variable {sha : Sha256} {s : ProofHandling}

lemma Inv.init (heap : ℕ → Resource) (sdu mdu : ℤ) : Inv sha (init heap sdu mdu) := by
  refine ⟨⟨?_, ?_, ?_⟩, ?_, ?_, ?_, ?_, ?_, ?_, ?_, ?_, ?_⟩ <;>
    simp [ProofHandling.init, OutgoingLink.init, target, held, UpToDate, Raised]

lemma Inv.idle (h : Inv sha s) (htarget : s.link.target = none) :
    s.link.outgoingRes = none ∧ s.link.outgoingResCompleteChan = none ∧ held s.phase = none := by
  have hres : s.link.outgoingRes = none := by
    by_contra hne
    obtain ⟨res, hres⟩ := ne_none_iff_exists'.1 hne
    obtain ⟨chan, ht, -⟩ := h.current res hres
    rw [htarget] at ht
    cases ht
  refine ⟨hres, ?_, ?_⟩
  · by_contra hne
    obtain ⟨chan, hchan⟩ := ne_none_iff_exists'.1 hne
    exact h.channel chan hchan hres
  · by_contra hne
    obtain ⟨out, hout⟩ := ne_none_iff_exists'.1 hne
    rw [h.holds out hout] at hres
    cases hres

lemma upToDate_of_held {phase : ProofPhase} (h : held phase = none) (heap : ℕ → Resource) :
    UpToDate sha heap phase := by
  cases phase with
  | idle | sending chan => trivial
  | _ => cases h

/-! ### The handler -/

section

variable (h : Inv sha s)
include h

lemma Inv.moved (heap : ℕ → Resource) (phase : ProofPhase)
    (hheld : ∀ out, held phase = some out → s.link.outgoingRes = some out)
    (hphase : ∀ chan, phase ≠ .sending chan) (hok : UpToDate sha heap phase) :
    Inv sha { s with link := { s.link with heap }, phase } := by
  have hraised : ∀ chan,
      Raised { s with link := { s.link with heap }, phase } chan →
      s.Raised chan := by
    rintro chan (hs | hs)
    · exact .inl hs
    · exact absurd hs (hphase chan)
  exact {
    toConclusive := { h with }
    current := h.current
    channel := h.channel
    holds := hheld
    upToDate := hok
    raised := fun res chan ht hr => h.raised res chan ht (hraised chan hr)
    pending := fun chan hc hr => h.pending chan hc (hraised chan hr)
    fresh := fun chan hr => h.fresh chan (hraised chan hr)
    target_lt := h.target_lt
    notEmpty := h.notEmpty }

lemma Inv.next (phase : ProofPhase) (hheld : held phase = held s.phase)
    (hphase : ∀ chan, phase ≠ .sending chan) (hok : UpToDate sha s.link.heap phase) :
    Inv sha { s with phase } :=
  h.moved s.link.heap phase (fun out hout => h.holds out (hheld ▸ hout)) hphase hok

lemma Inv.dropped : Inv sha { s with phase := .idle } :=
  h.moved s.link.heap _ nofun nofun trivial

lemma Inv.receive (data : Bytes) : Inv sha (s.receive data) := by
  rw [ProofHandling.receive]
  split_ifs
  · exact h
  · split
    · exact h
    · rename_i out hout
      refine h.moved s.link.heap _ ?_ nofun trivial
      rintro _ ⟨⟩
      exact hout

lemma Inv.advance {p : PendingProof} (hphase : s.phase = .advancing p) : Inv sha (s.advance p) := by
  have hgenuine : (conclusion s.link.heap p).Genuine sha := by
    have hok := h.upToDate
    rw [hphase] at hok
    exact hok
  have hheld : held s.phase = some p.out := by rw [hphase]; rfl
  rw [ProofHandling.advance]
  split_ifs with hlast
  · refine h.next (.signalling p) hheld.symm nofun ⟨hgenuine, ?_⟩
    rintro ⟨hsplit, hlt⟩
    simp only [conclusion] at hsplit hlt
    rcases hlast with hnot | hle
    · simp [hsplit] at hnot
    · exact absurd hlt (UInt16.not_lt.2 hle)
  · have hnext := h.moved
      (Function.update s.link.heap p.out { s.link.heap p.out with
        segmentIndex := (s.link.heap p.out).segmentIndex + 1 })
      (.advanced p) (fun out hout => h.holds out (hheld.trans hout)) nofun trivial
    refine { hnext with advanced := ?_ }
    intro c hc
    rcases List.mem_append.1 hc with hold | hnew
    · exact h.advanced c hold
    · rw [List.mem_singleton.1 hnew]
      exact hgenuine

lemma Inv.takeChannel {p : PendingProof} (hphase : s.phase = .signalling p) :
    Inv sha (s.takeChannel p) := by
  have hok : (conclusion s.link.heap p).Genuine sha ∧ (conclusion s.link.heap p).IsLast := by
    have hok := h.upToDate
    rw [hphase] at hok
    exact hok
  obtain ⟨chan, htarget, hchan⟩ := h.current p.out (h.holds p.out (by rw [hphase]; rfl))
  have hwaiter : s.link.waiter chan = some p.out := by simp [waiter, htarget]
  have hcompleted : ∀ c, c ∈ s.completed ++ [conclusion s.link.heap p] ↔
      c ∈ s.completed ∨ c = conclusion s.link.heap p := by simp
  simp only [ProofHandling.takeChannel, hchan, hwaiter]
  refine ⟨⟨h.advanced, ?_, ?_⟩, nofun, nofun, nofun, trivial, ?_, nofun, ?_, h.target_lt,
    h.notEmpty⟩
  · intro c hc
    rcases (hcompleted c).1 hc with hold | rfl
    · exact h.completed c hold
    · exact hok
  · intro r hr hresult
    obtain ⟨c, hc, hres⟩ := h.returned r hr hresult
    exact ⟨c, (hcompleted c).2 (.inl hc), hres⟩
  · rintro res chan' ht (hold | hnew)
    · obtain ⟨c, hc, hres⟩ := h.raised res chan' ht (.inl hold)
      exact ⟨c, (hcompleted c).2 (.inl hc), hres⟩
    · obtain rfl := ProofPhase.sending.inj hnew
      have hres : some (p.out, chan) = some (res, chan) := htarget.symm.trans ht
      exact ⟨_, (hcompleted _).2 (.inr rfl), (Prod.mk.inj (some.inj hres)).1⟩
  · rintro chan' (hold | hnew)
    · exact h.fresh chan' (.inl hold)
    · obtain rfl := ProofPhase.sending.inj hnew
      exact h.target_lt p.out chan htarget

lemma Inv.sent {chan : ℕ} (hphase : s.phase = .sending chan) :
    Inv sha { s with
      link := { s.link with signalled := chan :: s.link.signalled }, phase := .idle } := by
  have hraised : ∀ chan', Raised { s with
      link := { s.link with signalled := chan :: s.link.signalled }, phase := .idle } chan' →
      s.Raised chan' := by
    rintro chan' (hs | ⟨⟨⟩⟩)
    rcases List.mem_cons.1 hs with rfl | hs
    · exact .inr hphase
    · exact .inl hs
  exact {
    toConclusive := { h with }
    current := h.current
    channel := h.channel
    holds := nofun
    upToDate := trivial
    raised := fun res chan' ht hr => h.raised res chan' ht (hraised chan' hr)
    pending := fun chan' hc hr => h.pending chan' hc (hraised chan' hr)
    fresh := fun chan' hr => h.fresh chan' (hraised chan' hr)
    target_lt := h.target_lt
    notEmpty := h.notEmpty }

lemma Inv.proofStep {a : OutgoingAnswer}
    (he : undisturbed sha s (.proofStep a)) : Inv sha (s.proofStep sha a) := by
  have hok := h.upToDate
  rw [undisturbed] at he
  rw [ProofHandling.proofStep]
  cases hphase : s.phase with
  | idle => exact h
  | current out data =>
    simp only
    split_ifs with hhash
    · exact h.dropped
    · exact h.next _ (by rw [hphase]; rfl) nofun ⟨not_not.1 hhash, rfl⟩
  | named p =>
    rw [hphase] at hok
    simp only
    split_ifs with hproof
    · exact h.dropped
    · exact h.next _ (by rw [hphase]; rfl) nofun ⟨⟨hok.1, not_not.1 hproof⟩, hok.2⟩
  | checked p =>
    rw [hphase] at hok
    simp only
    split_ifs with hsplit
    · exact h.next _ (by rw [hphase]; rfl) nofun hok
    · exact h.next _ (by rw [hphase]; rfl) nofun ⟨hok, fun hlast => hsplit hlast.1⟩
  | splitRead p =>
    rw [hphase] at hok
    exact h.next _ (by rw [hphase]; rfl) nofun ⟨hok, rfl⟩
  | indexRead p segmentIndex =>
    rw [hphase] at hok
    obtain ⟨hgenuine, rfl⟩ := hok
    simp only
    split_ifs with hlt
    · exact h.next _ (by rw [hphase]; rfl) nofun hgenuine
    · exact h.next _ (by rw [hphase]; rfl) nofun ⟨hgenuine, fun hlast => hlt hlast.2⟩
  | advancing p => exact h.advance hphase
  | advanced p =>
    rw [hphase] at he
    obtain ⟨r, hr⟩ := Fallible.exists_of_isOk he
    simp only [hr]
    exact h.moved _ _ (fun out hout => h.holds out (by rw [hphase]; exact hout)) nofun trivial
  | nextPrepared p =>
    have hres : s.link.outgoingRes = some p.out := h.holds p.out (by rw [hphase]; rfl)
    have hnext := h.next (.nextCurrent p) (by rw [hphase]; rfl) nofun trivial
    simp only [← hres]
    exact { hnext with }
  | nextCurrent p =>
    rw [hphase] at he
    simp only [isNone_iff_eq_none.1 he]
    exact h.dropped
  | signalling p => exact h.takeChannel hphase
  | sending chan => exact h.sent hphase

/-! ### The sender -/

lemma Inv.sender {heap : ℕ → Resource} {phase : SendPhase}
    (htarget : ({ s.link with sender := phase } : OutgoingLink).target = s.link.target)
    (hphase : ∀ res chan, phase ≠ .empty res chan) (hok : UpToDate sha heap s.phase) :
    Inv sha { s with link := { s.link with heap, sender := phase } } := { h with
  toConclusive := { h with }
  current := fun res hres => by
    obtain ⟨chan, ht, hchan⟩ := h.current res hres
    exact ⟨chan, htarget.trans ht, hchan⟩
  upToDate := hok
  raised := fun res chan ht => h.raised res chan (htarget.symm.trans ht)
  target_lt := fun res chan ht => h.target_lt res chan (htarget.symm.trans ht)
  notEmpty := hphase }

lemma Inv.abandon (hheld : held s.phase = none) : Inv sha { s with link := s.link.abandon } :=
  { h with
    toConclusive := { h with }
    current := nofun
    channel := nofun
    holds := fun out hout => by
      rw [hheld] at hout
      cases hout
    upToDate := upToDate_of_held hheld _
    pending := nofun }

lemma Inv.finish (hcurrent : s.link.outgoingRes = none) {res : ℕ}
    {result : Except String Unit} (hresult : result = .ok () → ∃ c ∈ s.completed, c.res = res) :
    Inv sha { s with link := s.link.finish res result } := { h with
  returned := fun r hr hok => by
    rcases List.mem_append.1 hr with hold | hnew
    · exact h.returned r hold hok
    · obtain rfl := List.mem_singleton.1 hnew
      exact hresult hok
  current := fun r hr => by
    rw [OutgoingLink.finish, hcurrent] at hr
    cases hr
  raised := nofun
  target_lt := nofun
  notEmpty := nofun }

lemma Inv.fail (hcurrent : s.link.outgoingRes = none) (res : ℕ) (err : String) :
    Inv sha { s with link := s.link.finish res (.error err) } :=
  h.finish hcurrent fun hok => by cases hok

lemma Inv.register (htarget : s.link.target = none) (res : ℕ) :
    Inv sha { s with link := { s.link with
      outgoingRes := some res
      outgoingReceiverMinPart := 0
      outgoingResCompleteChan := some s.link.chans
      chans := s.link.chans + 1
      sender := .advertising res s.link.chans } } := by
  obtain ⟨-, -, hheld⟩ := h.idle htarget
  refine ⟨{ h with }, ?_, nofun, ?_, h.upToDate, ?_, ?_, ?_, ?_, nofun⟩
  · rintro _ ⟨⟩
    exact ⟨_, rfl, rfl⟩
  · intro out hout
    rw [hheld] at hout
    cases hout
  · rintro _ _ ⟨⟩ hr
    exact absurd (h.fresh _ hr) (lt_irrefl _)
  · rintro _ ⟨⟩ hr
    exact absurd (h.fresh _ hr) (lt_irrefl _)
  · intro chan hr
    exact (h.fresh chan hr).trans (Nat.lt_succ_self _)
  · rintro _ _ ⟨⟩
    exact Nat.lt_succ_self _

end

lemma held_of_settled {phase : ProofPhase} (h : settled phase) : held phase = none := by
  cases phase with
  | idle => rfl
  | sending chan => rfl
  | _ => cases h

lemma Inv.sendResource (h : Inv sha s) (res : ℕ) :
    Inv sha { s with link := s.link.sendResource res } := by
  rw [OutgoingLink.sendResource]
  cases hsender : s.link.sender with
  | idle =>
    have htarget : s.link.target = none := by simp [target, hsender]
    split_ifs
    · exact h.fail (h.idle htarget).1 _ _
    · exact h.sender (htarget ▸ rfl) (by simp) h.upToDate
  | _ => exact h

lemma Inv.senderStep (h : Inv sha s) {a : OutgoingAnswer} (he : undisturbed sha s (.senderStep a)) :
    Inv sha { s with link := s.link.senderStep sha a } := by
  rw [undisturbed] at he
  rw [OutgoingLink.senderStep]
  cases hsender : s.link.sender with
  | idle => exact h
  | preparing res =>
    have htarget : s.link.target = none := by simp [target, hsender]
    simp only
    cases (s.link.heap res).prepareOutboundForLink sha (some a.codec) a.random s.link.sdu with
    | error err => exact h.fail (h.idle htarget).1 _ _
    | ok r => exact h.sender (htarget ▸ rfl) (by simp) (upToDate_of_held (h.idle htarget).2.2 _)
  | prepared res => exact h.register (by simp [target, hsender]) res
  | advertising res chan =>
    have htarget : s.link.target = some (res, chan) := by simp [target, hsender]
    rw [hsender] at he
    cases hsent : a.sent with
    | some err =>
      simp only [hsent] at he
      exact (h.abandon (held_of_settled he)).fail rfl _ _
    | none => exact h.sender (htarget ▸ rfl) (by simp) h.upToDate
  | advertised res chan =>
    have htarget : s.link.target = some (res, chan) := by simp [target, hsender]
    rw [hsender] at he
    simp only [if_neg (of_decide_eq_true he)]
    exact h.sender (htarget ▸ rfl) (by simp) h.upToDate
  | empty res chan => exact absurd hsender (h.notEmpty res chan)
  | waiting res chan => exact h

lemma Inv.wake (h : Inv sha s) : Inv sha { s with link := s.link.wake } := by
  rw [OutgoingLink.wake]
  cases hsender : s.link.sender with
  | waiting res chan =>
    have htarget : s.link.target = some (res, chan) := by simp [target, hsender]
    simp only
    split_ifs with hs
    · -- the channel was taken when it was raised
      refine h.finish ?_ fun _ => h.raised res chan htarget (.inl hs)
      by_contra hne
      obtain ⟨out, hout⟩ := ne_none_iff_exists'.1 hne
      obtain ⟨chan', ht, hchan⟩ := h.current out hout
      obtain ⟨-, rfl⟩ := Prod.mk.inj (some.inj (htarget.symm.trans ht))
      exact h.pending chan hchan (.inl hs)
    · exact h
  | _ => exact h

lemma Inv.timeout (h : Inv sha s) (he : undisturbed sha s .timeout) :
    Inv sha { s with link := s.link.timeout } := by
  rw [OutgoingLink.timeout]
  cases s.link.sender with
  | waiting res chan => exact (h.abandon (held_of_settled he)).fail rfl _ _
  | _ => exact h

lemma Inv.signal (h : Inv sha s) (he : undisturbed sha s .signal) :
    Inv sha { s with link := s.link.signalOutgoingResourceComplete } := by
  have hchan : s.link.outgoingResCompleteChan = none := isNone_iff_eq_none.1 he
  have hheld : held s.phase = none := by
    by_contra hne
    obtain ⟨out, hout⟩ := ne_none_iff_exists'.1 hne
    obtain ⟨chan, -, hsome⟩ := h.current out (h.holds out hout)
    rw [hchan] at hsome
    cases hsome
  rw [signalOutgoingResourceComplete, hchan]
  exact h.abandon hheld

/-- **Every undisturbed step keeps the invariant.** -/
lemma Inv.step (h : Inv sha s) {e : Event} (he : undisturbed sha s e) : Inv sha (s.step sha e) := by
  cases e with
  | sendResource res => exact h.sendResource res
  | senderStep a => exact h.senderStep he
  | wake => exact h.wake
  | timeout => exact h.timeout he
  | proof data => exact h.receive data
  | proofStep a => exact h.proofStep he
  | signal => exact h.signal he
  | setStatus status => exact { h with }

end Steps

/-- **In an undisturbed run a proof only concludes the segment it proves**, however the sections of
the handler and of `SendResource` interleave, and whatever proofs arrive how often. -/
theorem conclusive_of_undisturbed {sha : Sha256} {heap : ℕ → Resource} {sdu mdu : ℤ}
    {es : List Event}
    (h : Run.Along (step sha) (fun s e => undisturbed sha s e) (init heap sdu mdu) es) :
    Run.Always (step sha) (Conclusive sha) (init heap sdu mdu) es :=
  (Run.always_of_along (fun _ _ hs he => hs.step he) (Inv.init heap sdu mdu) h).mono
    fun _ hs => hs.toConclusive

/-! ## Two resources, one after the other -/

def twoResources : ℕ → Resource := fun res =>
  .new .padded (.bytes (if res = 0 then [1, 2, 3] else [4, 5, 6])) false

def sending (res : ℕ) : List Event :=
  .sendResource res :: .replicate 4 (.senderStep plainAnswer)

def provedFirst : List Event :=
  sending 0 ++ .proof (sentHash ++ [1, 2, 3, 1, 2, 3] ++ List.replicate 26 0) ::
    .replicate 3 (.proofStep plainAnswer)

def completing : List Event :=
  .replicate 2 (.proofStep plainAnswer) ++ [.wake]

/-- The first resource is completed on its proof, and then the second one is sent. -/
theorem conclusive_provedFirst :
    (Run.exec (step Sha256.padded) (init twoResources 464 431)
        (provedFirst ++ completing)).link.returned = [(0, .ok ())] ∧
      Run.Always (step Sha256.padded) (Conclusive Sha256.padded) (init twoResources 464 431)
        (provedFirst ++ completing ++ sending 1) :=
  ⟨by decide +kernel, conclusive_of_undisturbed (by decide +kernel)⟩

def lateRun : List Event := provedFirst ++ .timeout :: sending 1 ++ completing

/-- **The proof of one resource completes the next.**  The first `SendResource` has reported a
timeout, and the second one reports success, on the proof of the first. -/
theorem lateProof_completes_later :
    (Run.exec (step Sha256.padded) (init twoResources 464 431) lateRun).link.returned =
        [(0, .error "resource transfer timeout"), (1, .ok ())] ∧
      ¬ Run.Always (step Sha256.padded) (Conclusive Sha256.padded) (init twoResources 464 431)
        lateRun := by
  refine ⟨by decide +kernel, fun h => ?_⟩
  have hcompleted : ∃ c ∈ (Run.exec (step .padded) (init twoResources 464 431)
      lateRun).completed, c.resource.hash ≠ c.data.take Sha256.size := by decide +kernel
  obtain ⟨c, hc, hhash⟩ := hcompleted
  exact hhash (h.last.completed c hc).1.1.1

end ProofHandling

end Reticulum

import Mathlib.Order.Interval.Finset.Nat
import Mathlib.Tactic.NormNum
import Reticulum.Core.Run
import Reticulum.Core.Serial
import Reticulum.Core.Keyed
import Reticulum.Channel.Def

/-!
# In-order delivery

The receiving side of a channel numbers what it expects modulo `2 ^ 16` and keeps what arrives early
in a ring.  `RxInv` reads sequence numbers as *absolute* positions in the stream.  One thing breaks
it (`overtakesHeld`): around the wrap the ring is not sorted, and a copy of an envelope that is held
*behind* the place where the scan stops is inserted a second time.  **`receive_inOrder_iff`** says
that there is nothing else.
-/

namespace Reticulum

open Channel.Constants List

namespace Channel

variable {M P : Type} {next : UInt16} {env : RxEnvelope M} {ring : List (RxEnvelope M)}

/-! ## Distances between sequence numbers -/

def aheadRX (next seq : UInt16) : ℕ := Serial.dist seqModulus next.toNat seq.toNat

lemma seqModulus_pos : 0 < seqModulus := by decide

lemma toNat_lt_seqModulus (s : UInt16) : s.toNat < seqModulus := s.toNat_lt

lemma toNat_nextSeq (s : UInt16) : (nextSeq s).toNat = (s.toNat + 1) % seqModulus := by
  simp only [nextSeq, UInt16.toNat_ofNat', seqModulus, seqMax]
  omega

lemma nextSeq_ofNat (n : ℕ) : nextSeq (.ofNat n) = .ofNat (n + 1) := by
  apply UInt16.toNat_inj.1
  simp only [toNat_nextSeq, UInt16.toNat_ofNat', seqModulus, seqMax]
  omega

lemma aheadRX_eq_zero {seq : UInt16} : aheadRX next seq = 0 ↔ seq = next := by
  rw [aheadRX, Serial.dist_eq_zero (toNat_lt_seqModulus _) (toNat_lt_seqModulus _),
    UInt16.toNat_inj, eq_comm]

lemma aheadRX_inj {s t : UInt16} (h : aheadRX next s = aheadRX next t) : s = t :=
  UInt16.toNat_inj.1 (Serial.dist_inj (toNat_lt_seqModulus s) (toNat_lt_seqModulus t) h)

lemma aheadRX_nextSeq {seq : UInt16} (h : seq ≠ next) :
    aheadRX (nextSeq next) seq = aheadRX next seq - 1 := by
  have hpos : 0 < aheadRX next seq := pos_of_ne_zero (mt aheadRX_eq_zero.1 h)
  rw [aheadRX, toNat_nextSeq]
  exact Serial.dist_succ seqModulus_pos hpos

lemma staleRXSequence_iff (seq next : UInt16) : staleRXSequence seq next ↔ seq.toNat < next.toNat ∧
      ((next.toNat + Constants.windowMax) % seqModulus < next.toNat →
        (next.toNat + Constants.windowMax) % seqModulus < seq.toNat) := by
  simp only [staleRXSequence, UInt16.le_iff_toNat_le]
  split_ifs with hle hover
  · simp only [false_iff]
    omega
  · rw [decide_eq_true_eq]
    omega
  · simp only [true_iff]
    omega

/-- **The acceptance window.**  A packet is turned away as stale or too far ahead exactly when its
sequence number lies more than 48 ahead of the expected one. -/
lemma outsideWindow_iff (seq next : UInt16) :
    (staleRXSequence seq next || farAheadRXSequence seq next) ↔
      Constants.windowMax < aheadRX next seq := by
  have hs : seq.toNat < 65536 := seq.toNat_lt
  have hn : next.toNat < 65536 := next.toNat_lt
  have hd : aheadRX next seq = (seq.toNat + (65536 - next.toNat)) % 65536 := by
    rw [aheadRX, Serial.dist, show next.toNat % seqModulus = next.toNat from Nat.mod_eq_of_lt hn]
    rfl
  rw [Bool.or_eq_true, staleRXSequence_iff, farAheadRXSequence, decide_eq_true_eq]
  simp only [Constants.windowMax, windowMaxFast, seqModulus, seqMax]
  omega

/-! ## Inserting into the ring -/

/-- Whether the scan of `emplaceRX` stops in front of an entry while the same sequence number is
held further back. -/
def overtakesHeld (next seq : UInt16) : List (RxEnvelope M) → Bool
  | [] => false
  | existing :: rest =>
    if seq = existing.sequence then false
    else if seq < existing.sequence ∧ (next.toNat : ℤ) - seq.toNat ≤ (seqMax : ℤ) / 2 then
      decide (seq ∈ rest.map (·.sequence))
    else overtakesHeld next seq rest

lemma emplaceRX_none (h : emplaceRX next env ring = none) :
    ∃ e ∈ ring, e.sequence = env.sequence := by
  induction ring with
  | nil => simp [emplaceRX] at h
  | cons existing rest ih =>
    simp only [emplaceRX] at h
    split_ifs at h with heq hlt
    · exact ⟨existing, mem_cons_self, heq.symm⟩
    · obtain ⟨e, he, hseq⟩ := ih (Option.map_eq_none_iff.1 h)
      exact ⟨e, mem_cons_of_mem _ he, hseq⟩

lemma emplaceRX_perm {ring' : List (RxEnvelope M)} (h : emplaceRX next env ring = some ring') :
    ring'.Perm (env :: ring) := by
  induction ring generalizing ring' with
  | nil =>
    simp only [emplaceRX, Option.some.injEq] at h
    subst h
    exact .refl _
  | cons existing rest ih =>
    simp only [emplaceRX] at h
    split_ifs at h with heq hlt
    · simp only [Option.some.injEq] at h
      subst h
      exact .refl _
    · obtain ⟨tail, htail, rfl⟩ := Option.map_eq_some_iff.1 h
      exact ((ih htail).cons existing).trans (.swap env existing rest)

lemma emplaceRX_fresh {ring' : List (RxEnvelope M)} (h : emplaceRX next env ring = some ring')
    (ho : overtakesHeld next env.sequence ring = false) : env.sequence ∉ ring.map (·.sequence) := by
  induction ring generalizing ring' with
  | nil => simp
  | cons existing rest ih =>
    simp only [emplaceRX] at h
    simp only [overtakesHeld] at ho
    split_ifs at h ho with heq hlt
    · simp only [decide_eq_false_iff_not] at ho
      simp only [map_cons, mem_cons, not_or]
      exact ⟨heq, ho⟩
    · obtain ⟨tail, htail, rfl⟩ := Option.map_eq_some_iff.1 h
      simp only [map_cons, mem_cons, not_or]
      exact ⟨heq, ih htail ho⟩

lemma emplaceRX_of_overtakes (ho : overtakesHeld next env.sequence ring) :
    ∃ ring', emplaceRX next env ring = some ring' ∧ env.sequence ∈ ring.map (·.sequence) := by
  induction ring with
  | nil => simp [overtakesHeld] at ho
  | cons existing rest ih =>
    simp only [overtakesHeld] at ho
    simp only [emplaceRX]
    split_ifs at ho ⊢ with heq hlt
    · exact ⟨_, rfl, mem_cons_of_mem _ (of_decide_eq_true ho)⟩
    · obtain ⟨tail, htail, hmem⟩ := ih ho
      exact ⟨_, by rw [htail]; rfl, mem_cons_of_mem _ hmem⟩

/-! ## The invariant -/

/-- **The receive invariant**, over the envelopes handed to the handlers so far, the expected
sequence number and the ring.  `Q k e` is what is known of an envelope `e` that stands for the
absolute number `k` of the stream. -/
structure RxInv (Q : ℕ → RxEnvelope M → Prop) (done : List (RxEnvelope M)) (next : UInt16)
    (ring : List (RxEnvelope M)) : Prop where
  next_eq : next.toNat = done.length % seqModulus
  done_ok : ∀ i e, done[i]? = some e → e.sequence.toNat = i % seqModulus ∧ Q i e
  nodup : (ring.map (·.sequence)).Nodup
  window : ∀ e ∈ ring, aheadRX next e.sequence ≤ Constants.windowMax
  ring_ok : ∀ e ∈ ring, Q (done.length + aheadRX next e.sequence) e

variable {Q : ℕ → RxEnvelope M → Prop} {done ring : List (RxEnvelope M)} {next : UInt16}
  {reg : Registry M} {c : Channel M P} {data : Bytes}

lemma RxInv.init : RxInv Q [] 0 [] where
  next_eq := rfl
  done_ok := by simp
  nodup := by simp
  window := by simp
  ring_ok := by simp

/-- One round of the drain: the envelope that is due leaves the ring and the next one is due. -/
lemma RxInv.pop (h : RxInv Q done next ring) (hfind : ring.find? (·.sequence = next) = some env) :
    RxInv Q (done ++ [env]) (nextSeq next) (ring.eraseP (·.sequence = next)) := by
  obtain ⟨hmem, hseq⟩ := Keyed.find?_mem hfind
  have hzero : aheadRX next env.sequence = 0 := aheadRX_eq_zero.2 hseq
  -- what stays in the ring is not due, so it comes one step nearer
  have hstay : ∀ e ∈ ring.eraseP (·.sequence = next), e ∈ ring ∧ e.sequence ≠ next :=
    fun e he => (Keyed.mem_eraseP_iff h.nodup).1 he
  have hnear : ∀ e ∈ ring.eraseP (·.sequence = next),
      done.length + 1 + aheadRX (nextSeq next) e.sequence
        = done.length + aheadRX next e.sequence := by
    intro e he
    have hne := (hstay e he).2
    have hpos : aheadRX next e.sequence ≠ 0 := mt aheadRX_eq_zero.1 hne
    rw [aheadRX_nextSeq hne]
    omega
  constructor
  · rw [toNat_nextSeq, h.next_eq, Nat.mod_add_mod, length_append, length_singleton]
  · intro i e hi
    rcases Keyed.getElem?_concat.1 hi with hi | ⟨rfl, rfl⟩
    · exact h.done_ok i e hi
    · refine ⟨by rw [hseq, h.next_eq], ?_⟩
      have := h.ring_ok env hmem
      rwa [hzero] at this
  · exact (eraseP_sublist.map _).nodup h.nodup
  · intro e he
    have := h.window e (hstay e he).1
    have := hnear e he
    omega
  · intro e he
    rw [length_append, length_singleton, hnear e he]
    exact h.ring_ok e (hstay e he).1

/-- **The drain.**  With as many rounds as entries the loop ends because nothing is due, and it has
moved envelopes from the ring to the handlers without losing or copying one. -/
lemma RxInv.drainLoop (n : ℕ) {done : List (RxEnvelope M)} (h : RxInv Q done next ring)
    (hn : ring.length ≤ n) :
    RxInv Q (done ++ (drainLoop n next ring).out) (drainLoop n next ring).next
        (drainLoop n next ring).ring ∧
      (∀ e ∈ (drainLoop n next ring).ring, e.sequence ≠ (drainLoop n next ring).next) ∧
      ring.Perm ((drainLoop n next ring).out ++ (drainLoop n next ring).ring) := by
  -- on the rounds, for every state: each round hands one envelope over and shortens the ring
  induction n generalizing done ring next with
  | zero =>
    obtain rfl := length_eq_zero_iff.1 (Nat.le_zero.1 hn)
    simpa [drainLoop] using h
  | succ n ih =>
    rw [drainLoop]
    cases hfind : ring.find? (·.sequence = next) with
    | none =>
      refine ⟨by simpa using h, fun e he => Keyed.find?_eq_none.1 hfind e he, by simp⟩
    | some env =>
      have hperm := Keyed.perm_cons_eraseP hfind
      have hlen : (ring.eraseP (·.sequence = next)).length ≤ n := by
        have := hperm.length_eq
        rw [length_cons] at this
        omega
      obtain ⟨hinv, hdue, hrest⟩ := ih (h.pop hfind) hlen
      refine ⟨by simpa using hinv, hdue, hperm.trans ?_⟩
      exact hrest.cons env

/-! ## One inbound packet -/

/-- The envelope with which a packet reaches the ring, if it does: the packet is complete, its
sequence number lies in the window, and its body unpacks. -/
def arrival (reg : Registry M) (c : Channel M P) (data : Bytes) : Option (RxEnvelope M) :=
  match parseEnvelope data with
  | none => none
  | some (msgType, sequence, length, rest) =>
    if rest.length < length.toNat then none
    else if staleRXSequence sequence c.nextRxSequence ||
        farAheadRXSequence sequence c.nextRxSequence then none
    else
      match unpackMessage reg msgType sequence (rest.take length.toNat) with
      | .error _ => none
      | .ok msg => some ⟨sequence, msg⟩

lemma handleInbound_of_arrival_none (h : arrival reg c data = none) :
    (handleInbound reg c data).channel = c ∧ (handleInbound reg c data).delivered = [] := by
  rw [arrival] at h
  rw [handleInbound]
  cases hparse : parseEnvelope data with
  | none => exact ⟨rfl, rfl⟩
  | some header =>
    obtain ⟨msgType, sequence, length, rest⟩ := header
    simp only [hparse] at h ⊢
    split_ifs at h ⊢ with hshort hout
    · exact ⟨rfl, rfl⟩
    · exact ⟨rfl, rfl⟩
    · cases hunpack : unpackMessage reg msgType sequence (rest.take length.toNat) with
      | error err => exact ⟨rfl, rfl⟩
      | ok msg => simp [hunpack] at h

lemma handleInbound_of_arrival (h : arrival reg c data = some env) :
    aheadRX c.nextRxSequence env.sequence ≤ Constants.windowMax ∧
      handleInbound reg c data = deliver c env := by
  rw [arrival] at h
  rw [handleInbound]
  cases hparse : parseEnvelope data with
  | none => simp [hparse] at h
  | some header =>
    obtain ⟨msgType, sequence, length, rest⟩ := header
    simp only [hparse] at h ⊢
    split_ifs at h ⊢ with hshort hout
    cases hunpack : unpackMessage reg msgType sequence (rest.take length.toNat) with
    | error err => simp [hunpack] at h
    | ok msg =>
      simp only [hunpack, Option.some.injEq] at h
      subst h
      rw [outsideWindow_iff] at hout
      exact ⟨not_lt.1 hout, rfl⟩

lemma deliver_of_window (hw : aheadRX c.nextRxSequence env.sequence ≤ Constants.windowMax) :
    deliver c env =
      match emplaceRX c.nextRxSequence env c.rxRing with
      | none => ⟨c, [], .ok ()⟩
      | some ring =>
        ⟨{ c with rxRing := (drainRX c.nextRxSequence ring).ring,
                  nextRxSequence := (drainRX c.nextRxSequence ring).next },
          (drainRX c.nextRxSequence ring).out, .ok ()⟩ := by
  exact if_neg (mt (outsideWindow_iff _ _).1 (not_lt.2 hw))

/-- The invariant between two packets: nothing in the ring is due. -/
structure RxSettled (Q : ℕ → RxEnvelope M → Prop) (done : List (RxEnvelope M))
    (c : Channel M P) : Prop where
  inv : RxInv Q done c.nextRxSequence c.rxRing
  not_due : ∀ e ∈ c.rxRing, e.sequence ≠ c.nextRxSequence

/-- **One packet keeps the invariant**, provided it does not overtake a held copy and `Q` holds of
the number it is taken for; and no envelope is lost on the way: what was held is held or handed
on, and so is what the packet brought, or an envelope with its sequence number was held already. -/
lemma RxSettled.deliver (h : RxSettled Q done c)
    (hw : aheadRX c.nextRxSequence env.sequence ≤ Constants.windowMax)
    (ho : overtakesHeld c.nextRxSequence env.sequence c.rxRing = false)
    (hq : Q (done.length + aheadRX c.nextRxSequence env.sequence) env) :
    RxSettled Q (done ++ (deliver c env).delivered) (deliver c env).channel ∧
      (∀ e ∈ c.rxRing, e ∈ (deliver c env).delivered ++ (deliver c env).channel.rxRing) ∧
      ∃ e ∈ (deliver c env).delivered ++ (deliver c env).channel.rxRing,
        e.sequence = env.sequence ∧ (e = env ∨ e ∈ c.rxRing) := by
  rw [deliver_of_window hw]
  cases hemp : emplaceRX c.nextRxSequence env c.rxRing with
  | none =>
    obtain ⟨e, he, hseq⟩ := emplaceRX_none hemp
    refine ⟨by simpa using h, fun e he => by simpa using he, e, by simpa using he, hseq, ?_⟩
    exact .inr he
  | some ring =>
    have hperm := emplaceRX_perm hemp
    have hring : RxInv Q done c.nextRxSequence ring := by
      constructor
      · exact h.inv.next_eq
      · exact h.inv.done_ok
      · rw [(hperm.map _).nodup_iff, map_cons, nodup_cons]
        exact ⟨emplaceRX_fresh hemp ho, h.inv.nodup⟩
      · intro e he
        rcases mem_cons.1 (hperm.mem_iff.1 he) with rfl | he
        · exact hw
        · exact h.inv.window e he
      · intro e he
        rcases mem_cons.1 (hperm.mem_iff.1 he) with rfl | he
        · exact hq
        · exact h.inv.ring_ok e he
    obtain ⟨hinv, hdue, hrest⟩ := hring.drainLoop ring.length (le_refl _)
    have hkeep : ∀ e ∈ env :: c.rxRing, e ∈ (drainRX c.nextRxSequence ring).out ++
        (drainRX c.nextRxSequence ring).ring :=
      fun e he => (hperm.symm.trans hrest).mem_iff.1 he
    exact ⟨⟨hinv, hdue⟩, fun e he => hkeep e (mem_cons_of_mem _ he),
      env, hkeep env mem_cons_self, rfl, .inl rfl⟩

/-! ## Runs of inbound packets -/

/-- The receiving side over time: the channel and every envelope handed to the handlers so far. -/
structure RxSession (M P : Type) where
  channel : Channel M P
  dispatched : List (RxEnvelope M)

def RxSession.new (rtt : ℚ) : RxSession M P := ⟨.new rtt, []⟩

@[simp] lemma new_rxRing (rtt : ℚ) : (new rtt : Channel M P).rxRing = [] := by
  rw [new]
  split_ifs <;> rfl

@[simp] lemma new_nextRxSequence (rtt : ℚ) : (new rtt : Channel M P).nextRxSequence = 0 := by
  rw [new]
  split_ifs <;> rfl

def receive (reg : Registry M) (s : RxSession M P) (data : Bytes) : RxSession M P :=
  ⟨(handleInbound reg s.channel data).channel,
    s.dispatched ++ (handleInbound reg s.channel data).delivered⟩

/-- **In-order delivery.**  The envelopes handed on carry the numbers `0, 1, 2, …` modulo `2 ^ 16`;
the ring holds distinct sequence numbers, `1 … 48` ahead of the expected one. -/
structure InOrder (s : RxSession M P) : Prop where
  dispatched : s.dispatched.map (·.sequence.toNat) =
    (range s.dispatched.length).map (· % seqModulus)
  distinct : (s.channel.rxRing.map (·.sequence)).Nodup
  ahead : ∀ e ∈ s.channel.rxRing, 1 ≤ aheadRX s.channel.nextRxSequence e.sequence ∧
    aheadRX s.channel.nextRxSequence e.sequence ≤ Constants.windowMax
  bounded : s.channel.rxRing.length ≤ Constants.windowMax

/-- The packet `data` does not overtake a held copy of its own sequence number. -/
def NoOvertaking (reg : Registry M) (s : RxSession M P) (data : Bytes) : Prop :=
  ∀ env, arrival reg s.channel data = some env →
    overtakesHeld s.channel.nextRxSequence env.sequence s.channel.rxRing = false

lemma length_le_of_window {w : ℕ} (hn : (ring.map (·.sequence)).Nodup)
    (hw : ∀ e ∈ ring, 1 ≤ aheadRX next e.sequence ∧ aheadRX next e.sequence ≤ w) :
    ring.length ≤ w := by
  have hnodup : (ring.map fun e => aheadRX next e.sequence).Nodup := by
    have := hn.map fun s t h => @aheadRX_inj next s t h
    rwa [map_map] at this
  have hsub : (ring.map fun e => aheadRX next e.sequence).toFinset ⊆ .Icc 1 w := by
    intro d hd
    obtain ⟨e, he, rfl⟩ := mem_map.1 (mem_toFinset.1 hd)
    exact Finset.mem_Icc.2 (hw e he)
  have hcard := Finset.card_le_card hsub
  rwa [toFinset_card_of_nodup hnodup, length_map, Nat.card_Icc]
    at hcard

variable {s : RxSession M P}

lemma RxSettled.inOrder (h : RxSettled Q s.dispatched s.channel) : InOrder s := by
  have hahead : ∀ e ∈ s.channel.rxRing, 1 ≤ aheadRX s.channel.nextRxSequence e.sequence ∧
      aheadRX s.channel.nextRxSequence e.sequence ≤ Constants.windowMax := fun e he =>
    ⟨pos_of_ne_zero (mt aheadRX_eq_zero.1 (h.not_due e he)), h.inv.window e he⟩
  refine ⟨?_, h.inv.nodup, hahead, length_le_of_window h.inv.nodup hahead⟩
  apply ext_getElem?
  intro i
  rw [getElem?_map, getElem?_map]
  cases he : s.dispatched[i]? with
  | none =>
    have hlen := getElem?_eq_none_iff.1 he
    rw [getElem?_eq_none (by rwa [length_range])]
    rfl
  | some e =>
    rw [getElem?_range (List.getElem?_eq_some_iff.1 he).1]
    simp [(h.inv.done_ok i e he).1]

lemma RxSettled.receive (h : RxSettled (fun _ _ => True) s.dispatched s.channel)
    (hok : NoOvertaking reg s data) :
    RxSettled (fun _ _ => True) (receive reg s data).dispatched (receive reg s data).channel := by
  cases harr : arrival reg s.channel data with
  | none =>
    obtain ⟨hchan, hdel⟩ := handleInbound_of_arrival_none harr
    simpa [Channel.receive, hchan, hdel] using h
  | some env =>
    obtain ⟨hw, heq⟩ := handleInbound_of_arrival harr
    rw [Channel.receive, heq]
    exact (h.deliver hw (hok env harr) trivial).1

lemma RxSettled.not_inOrder (h : RxSettled (fun _ _ => True) s.dispatched s.channel)
    (hbad : ¬ NoOvertaking reg s data) : ¬ InOrder (Channel.receive reg s data) := by
  simp only [NoOvertaking, not_forall, Bool.not_eq_false] at hbad
  obtain ⟨env, harr, ho⟩ := hbad
  obtain ⟨hw, heq⟩ := handleInbound_of_arrival harr
  obtain ⟨ring, hemp, hmem⟩ := emplaceRX_of_overtakes ho
  have hperm := emplaceRX_perm hemp
  -- the sequence number is held, hence not due, so the drain takes nothing out
  have hdue : ∀ e ∈ ring, e.sequence ≠ s.channel.nextRxSequence := by
    obtain ⟨held, hheld, hseq⟩ := mem_map.1 hmem
    intro e he
    rcases mem_cons.1 (hperm.mem_iff.1 he) with rfl | he
    · rw [← hseq]
      exact h.not_due held hheld
    · exact h.not_due e he
  have hdrain : (drainRX s.channel.nextRxSequence ring).ring = ring := by
    rw [drainRX]
    cases hlen : ring.length with
    | zero => rfl
    | succ n => rw [drainLoop, Keyed.find?_eq_none.2 hdue]
  intro hin
  have hnodup := hin.distinct
  rw [Channel.receive, heq, deliver_of_window hw, hemp] at hnodup
  simp only [hdrain] at hnodup
  rw [(hperm.map _).nodup_iff, map_cons, nodup_cons] at hnodup
  exact hnodup.1 hmem

/-- **Exactly-once, in-order delivery holds in exactly the runs without overtaking.**  For every
sequence of inbound packets whatsoever, delivery is in order after every call if and only if no
call brings a sequence number that is held behind the place where the scan of the ring stops. -/
theorem receive_inOrder_iff (reg : Registry M) (rtt : ℚ) (calls : List Bytes) :
    Run.Always (receive reg) InOrder (RxSession.new rtt : RxSession M P) calls ↔
      Run.Along (receive reg) (NoOvertaking reg) (RxSession.new rtt : RxSession M P) calls := by
  have hinit : RxSettled (fun _ _ => True) (.new rtt : RxSession M P).dispatched
      (.new rtt : RxSession M P).channel := by
    constructor
    · simp only [RxSession.new, new_rxRing, new_nextRxSequence]
      exact .init
    · simp [RxSession.new]
  exact Run.always_iff_along
    (I := fun s => RxSettled (fun _ _ => True) s.dispatched s.channel)
    (fun _ h => h.inOrder) (fun _ _ h hok => h.receive hok) (fun _ _ h hbad => h.not_inOrder hbad)
    hinit

/-! ## The wrap

Around the wrap the order of the ring is the order of arrival, since the code compares distances to
the expected number only in one direction.  Two envelopes that arrive early and swapped, just
before the wrap, are all it takes.
-/

def genericRegistry : Registry GenericMessage := ⟨fun _ => none, id, []⟩

def emptyEnvelope (sequence : UInt16) : Bytes :=
  .putUint16 0 ++ .putUint16 sequence ++ .putUint16 0

@[irreducible] def inOrderCalls (n : ℕ) : List Bytes :=
  (range n).map fun i => emptyEnvelope (.ofNat i)

/-- `2 ^ 16 - 1` envelopes in order; then number 2 and number 1 of the next round arrive early and
swapped, the due envelope arrives, and number 1 arrives again. -/
@[irreducible] def wrapCalls : List Bytes :=
  inOrderCalls 65535 ++ [emptyEnvelope 2, emptyEnvelope 1, emptyEnvelope 65535, emptyEnvelope 1]

lemma handleInbound_due (c : Channel GenericMessage P) (hring : c.rxRing = []) :
    (handleInbound genericRegistry c (emptyEnvelope c.nextRxSequence)).channel =
      { c with nextRxSequence := nextSeq c.nextRxSequence } := by
  have harr : arrival genericRegistry c (emptyEnvelope c.nextRxSequence) =
      some ⟨c.nextRxSequence, ⟨0, [], c.nextRxSequence⟩⟩ := by
    have hin : ¬ (staleRXSequence c.nextRxSequence c.nextRxSequence ||
        farAheadRXSequence c.nextRxSequence c.nextRxSequence) := by
      rw [outsideWindow_iff, aheadRX_eq_zero.2 rfl]
      exact Nat.not_lt_zero _
    have hparse : parseEnvelope (emptyEnvelope c.nextRxSequence) =
        some (0, c.nextRxSequence, 0, []) := by
      simp only [emptyEnvelope, Bytes.putUint16, cons_append, nil_append, parseEnvelope,
        Bytes.uint16_putUint16]
    simp only [arrival, hparse]
    rw [if_neg hin]
    rfl
  obtain ⟨hw, heq⟩ := handleInbound_of_arrival harr
  rw [heq, deliver_of_window hw, hring]
  simp [emplaceRX, drainRX, drainLoop]

def fastChannel (next : UInt16) : Channel GenericMessage ℕ :=
  ⟨[], [], 2, 5, 2, 4, 0, 0, 0, next, 5⟩

lemma new_zero : (new 0 : Channel GenericMessage ℕ) = fastChannel 0 := by
  rw [new, if_neg (by norm_num [rttSlow])]
  rfl

lemma exec_inOrderCalls (n : ℕ) :
    (Run.exec (receive genericRegistry) (.new 0) (inOrderCalls n)).channel =
      fastChannel (.ofNat n) := by
  induction n with
  | zero =>
    rw [inOrderCalls]
    exact new_zero
  | succ n ih =>
    have hdue := handleInbound_due (fastChannel (.ofNat n)) rfl
    have hcalls : inOrderCalls (n + 1) = inOrderCalls n ++ [emptyEnvelope (.ofNat n)] := by
      rw [inOrderCalls, inOrderCalls, range_succ, map_append]
      rfl
    rw [hcalls, Run.exec_append, Run.exec_cons, receive, ih]
    exact hdue.trans (by rw [fastChannel, fastChannel, nextSeq_ofNat])

lemma exec_wrap :
    (Run.exec (fun c data => (handleInbound genericRegistry c data).channel) (fastChannel 65535)
        [emptyEnvelope 2, emptyEnvelope 1, emptyEnvelope 65535, emptyEnvelope 1]).rxRing.map
      (·.sequence) = [1, 2, 1] := by
  decide +kernel

lemma not_inOrder_of_wrap {s : RxSession GenericMessage ℕ} (hs : s.channel = fastChannel 65535) :
    ¬ InOrder (Run.exec (receive genericRegistry) s
      [emptyEnvelope 2, emptyEnvelope 1, emptyEnvelope 65535, emptyEnvelope 1]) := by
  intro h
  have hdistinct := h.distinct
  have hheld := exec_wrap
  rw [← hs] at hheld
  simp only [Run.exec_cons, Run.exec_nil, receive] at hdistinct hheld
  rw [hheld] at hdistinct
  revert hdistinct
  decide

/-- Delivery is **not** in order in every run: the run around the wrap holds a number twice. -/
theorem wrapCalls_not_inOrder :
    ¬ Run.Always (receive genericRegistry) InOrder
      (RxSession.new 0 : RxSession GenericMessage ℕ) wrapCalls := by
  intro h
  have hlast := h.last
  rw [wrapCalls, Run.exec_append] at hlast
  exact not_inOrder_of_wrap (exec_inOrderCalls 65535) hlast

end Channel

end Reticulum

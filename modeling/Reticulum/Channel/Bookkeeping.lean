import Reticulum.Channel.Send

/-!
# The bookkeeping of the sender

A sender that is also closed now and then: `Close` empties the rings and leaves everything else as
it is, a `Send` in progress included.

**`bookkept`** — in every run successful sends carry consecutive sequence numbers, a `Send` that
fails leaves no trace, and the window and the ring stay in bounds.
-/

namespace Reticulum

open Channel.Constants Channel Sending

namespace Channel

variable {M P : Type} {c : Channel M P}

def Bounded (c : Channel M P) : Prop :=
  1 ≤ c.windowMin ∧ 1 ≤ c.window ∧ c.window ≤ c.windowMax ∧ c.windowMax ≤ 48

lemma Bounded.new (rtt : ℚ) : Bounded (new rtt : Channel M P) := by
  rw [Channel.new]
  split_ifs <;> simp [Bounded, windowInitial, windowMaxSlow, windowMinSlow]

lemma Bounded.shrinkWindowOnTimeout (h : Bounded c) : Bounded c.shrinkWindowOnTimeout := by
  simp only [Bounded, Channel.shrinkWindowOnTimeout] at h ⊢
  split_ifs <;> omega

lemma Bounded.adjustWindowOnDelivered (h : Bounded c) (rtt : ℚ) :
    Bounded (c.adjustWindowOnDelivered rtt) := by
  have hmedium : windowMaxMedium = 12 ∧ windowMinMedium = 5 := ⟨rfl, rfl⟩
  have hfast : windowMaxFast = 48 ∧ windowMinFast = 16 := ⟨rfl, rfl⟩
  simp only [Bounded, Channel.adjustWindowOnDelivered] at h ⊢
  grind

lemma adjustWindowOnDelivered_withNext (c : Channel M P) (rtt : ℚ) (n : UInt16) :
    ({ c with nextSequence := n } : Channel M P).adjustWindowOnDelivered rtt =
      { c.adjustWindowOnDelivered rtt with nextSequence := n } := by
  simp only [adjustWindowOnDelivered]
  split_ifs <;> rfl

lemma length_outstanding (c : Channel M P) : c.outstanding.length = c.txRing.length := by
  simp [outstanding]

lemma reserve_ready [MessageBase M] {o : Outlet} {msg : M} {x : Reservation M × Channel M P}
    (h : reserve o c msg = .ok x) : c.txRing.length < c.window := by
  simp only [reserve, bind, Except.bind] at h
  split_ifs at h with hready
  simp_all [isReadyToSend]

def close (c : Channel M P) : Channel M P := { c with txRing := [], rxRing := [] }

variable [DecidableEq P]

lemma handleTimeout_withNext (c : Channel M P) (packet : P) (resent : Bool) (n : UInt16) :
    ({ c with nextSequence := n } : Channel M P).handleTimeout packet resent =
      { c.handleTimeout packet resent with nextSequence := n } := by
  simp only [handleTimeout]
  cases c.txRing.find? (·.packet = packet) with
  | none => rfl
  | some env =>
    simp only [shrinkWindowOnTimeout]
    split_ifs <;> rfl

lemma handleDelivered_withNext (c : Channel M P) (packet : P) (rtt : ℚ) (n : UInt16) :
    ({ c with nextSequence := n } : Channel M P).handleDelivered rtt packet =
      { c.handleDelivered rtt packet with nextSequence := n } := by
  simp only [handleDelivered]
  cases c.txRing.find? (·.packet = packet) with
  | none => rfl
  | some env =>
    exact adjustWindowOnDelivered_withNext { c with txRing := dropPacket packet c.txRing } rtt n

lemma Bounded.handleTimeout (h : Bounded c) (packet : P) (resent : Bool) :
    Bounded (c.handleTimeout packet resent) := by
  have hshrunk := h.shrinkWindowOnTimeout
  rw [Channel.handleTimeout]
  cases c.txRing.find? (·.packet = packet) with
  | none => exact h
  | some env =>
    dsimp only
    split_ifs <;> exact hshrunk

lemma Bounded.handleDelivered (h : Bounded c) (packet : P) (rtt : ℚ) :
    Bounded (c.handleDelivered rtt packet) := by
  rw [Channel.handleDelivered]
  cases c.txRing.find? (·.packet = packet) with
  | none => exact h
  | some env =>
    have hring : Bounded { c with txRing := dropPacket packet c.txRing } := h
    exact hring.adjustWindowOnDelivered rtt

lemma length_handleTimeout_le (c : Channel M P) (packet : P) (resent : Bool) :
    (c.handleTimeout packet resent).txRing.length ≤ c.txRing.length := by
  rw [← length_outstanding, ← length_outstanding, outstanding_handleTimeout]
  split_ifs
  · exact List.length_eraseP_le
  · exact le_rfl

lemma length_handleDelivered_le (c : Channel M P) (packet : P) (rtt : ℚ) :
    (c.handleDelivered rtt packet).txRing.length ≤ c.txRing.length := by
  rw [← length_outstanding, ← length_outstanding, outstanding_handleDelivered]
  exact List.length_eraseP_le

end Channel

inductive SenderCall (M : Type) where
  | event (e : SenderEvent M)
  | close

def SenderCall.isCallback {M : Type} : SenderCall M → Bool
  | .event (.timeout _ _) | .event (.delivered _ _) | .close => true
  | _ => false

def Sending.reservation {M : Type} : Sending M → Option (Reservation M)
  | .idle => none
  | .reserved r | .transmitted r _ => some r

namespace Sender

variable {M : Type} {s : Sender M}

structure Books (s : Sender M) : Prop where
  numbered : ∀ k x, s.sent[k]? = some x → x.2 = UInt16.ofNat k
  idle_ok : s.pending.reservation = none →
    s.channel.nextSequence = .ofNat s.sent.length
  busy_ok : ∀ r, s.pending.reservation = some r → r.sequence = .ofNat s.sent.length ∧
    s.channel.nextSequence = .ofNat (s.sent.length + 1) ∧ s.channel.txRing.length < 48
  bounded : s.channel.Bounded
  ring : s.channel.txRing.length ≤ 48

lemma Books.init (rtt : ℚ) : Books (new rtt : Sender M) := by
  have hnew : (.new rtt : Channel M ℕ).txRing = [] ∧
      (.new rtt : Channel M ℕ).nextSequence = 0 := by
    rw [Channel.new]
    split_ifs <;> exact ⟨rfl, rfl⟩
  exact ⟨by simp [new], fun _ => hnew.2, by simp [new, reservation], .new rtt,
    by simp [new, hnew]⟩

lemma Books.of_callback (h : Books s) {c : Channel M ℕ} {acked : List ℕ}
    (hnext : c.nextSequence = s.channel.nextSequence)
    (hring : c.txRing.length ≤ s.channel.txRing.length) (hbounded : c.Bounded) :
    Books { s with channel := c, acked } where
  numbered := h.numbered
  idle_ok hidle := hnext.trans (h.idle_ok hidle)
  busy_ok r hr := by
    obtain ⟨hseq, hnext', hroom⟩ := h.busy_ok r hr
    exact ⟨hseq, hnext.trans hnext', hring.trans_lt hroom⟩
  bounded := hbounded
  ring := hring.trans h.ring

variable [MessageBase M]

def call (s : Sender M) : SenderCall M → Sender M
  | .event e => s.step e
  | .close => { s with channel := s.channel.close }

/-- **The books of a sender.**  A `Send` that fails, at once or because the link transmits nothing,
leaves the channel as the callbacks in between would have left it without the `Send`. -/
structure Bookkept (s : Sender M) : Prop where
  numbered : ∀ k x, s.sent[k]? = some x → x.2 = UInt16.ofNat k
  failed : ∀ o msg (callbacks : List (SenderCall M)), s.pending = .idle →
    (∀ e ∈ callbacks, e.isCallback = true) →
    (Run.exec call s (.event (.send o msg) :: callbacks ++ [.event (.linkSend false)])).channel =
      (Run.exec call s callbacks).channel
  window : 1 ≤ s.channel.window ∧ s.channel.window ≤ s.channel.windowMax ∧
    s.channel.windowMax ≤ 48
  ring : s.channel.txRing.length ≤ 48

/-! ## A `Send` that fails -/

def reserving (s : Sender M) (r : Reservation M) (n : UInt16) : Sender M :=
  { s with channel := { s.channel with nextSequence := n }, pending := .reserved r }

lemma call_reserving (s : Sender M) (r : Reservation M) (n : UInt16) {e : SenderCall M}
    (he : e.isCallback) : (s.reserving r n).call e = (s.call e).reserving r n ∧
      (s.call e).pending = s.pending ∧
      (s.call e).channel.nextSequence = s.channel.nextSequence := by
  cases e with
  | close => exact ⟨rfl, rfl, rfl⟩
  | event e =>
    cases e with
    | timeout packet resent =>
      simp [call, step, reserving, handleTimeout_withNext, nextSequence_handleTimeout]
    | delivered packet rtt =>
      simp [call, step, reserving, handleDelivered_withNext, nextSequence_handleDelivered]
    | send | linkSend | emplace => simp [SenderCall.isCallback] at he

lemma exec_reserving (s : Sender M) (r : Reservation M) (n : UInt16)
    {callbacks : List (SenderCall M)} (h : ∀ e ∈ callbacks, e.isCallback) :
    Run.exec call (s.reserving r n) callbacks = (Run.exec call s callbacks).reserving r n ∧
      (Run.exec call s callbacks).pending = s.pending ∧
      (Run.exec call s callbacks).channel.nextSequence = s.channel.nextSequence := by
  induction callbacks generalizing s with
  | nil => exact ⟨rfl, rfl, rfl⟩
  | cons e rest ih =>
    rw [List.forall_mem_cons] at h
    obtain ⟨hstep, hpending, hnext⟩ := s.call_reserving r n h.1
    simp only [Run.exec_cons, hstep]
    rw [← hpending, ← hnext]
    exact ih (s.call e) h.2

lemma channel_of_failed (o : Outlet) (msg : M) {callbacks : List (SenderCall M)}
    (hidle : s.pending = .idle) (h : ∀ e ∈ callbacks, e.isCallback) :
    (Run.exec call s (.event (.send o msg) :: callbacks ++ [.event (.linkSend false)])).channel =
      (Run.exec call s callbacks).channel := by
  simp only [Run.exec_cons, Run.exec_append]
  cases hres : s.channel.reserve o msg with
  | error err =>
    obtain ⟨-, hpending, -⟩ := s.exec_reserving ⟨0, msg, []⟩ 0 h
    simp [call, step, hidle, hres, hpending]
  | ok rc =>
    obtain ⟨r, c⟩ := rc
    obtain ⟨hseq, rfl, -⟩ := reserve_ok hres
    obtain ⟨hexec, -, hnext⟩ := s.exec_reserving r (nextSeq s.channel.nextSequence) h
    have hsend : s.call (.event (.send o msg)) =
        s.reserving r (nextSeq s.channel.nextSequence) := by
      simp [call, step, hidle, hres, reserving]
    rw [hsend, hexec]
    simp [call, step, reserving, rewind, hseq, ← hnext]

/-! ## Runs -/

lemma Books.call (h : Books s) (e : SenderCall M) : Books (s.call e) := by
  cases e with
  | close =>
    exact h.of_callback rfl (Nat.zero_le _) h.bounded
  | event e =>
    have hstep := s.change_step e
    simp only [Sender.call]
    generalize s.step e = s' at hstep ⊢
    cases hstep with
    | same => exact h
    | @reserved o msg r c hpend hres =>
      have hready := reserve_ready hres
      have hwindow := h.bounded.2.2.1.trans h.bounded.2.2.2
      obtain ⟨hseq, rfl, -⟩ := reserve_ok hres
      have hnext := h.idle_ok (by simp [hpend, reservation])
      refine { h with idle_ok := by simp [reservation], busy_ok := ?_ }
      intro r' hr'
      obtain rfl : r = r' := by simpa [reservation] using hr'
      exact ⟨hseq.trans hnext, by simp [hnext, nextSeq_ofNat], by dsimp only; omega⟩
    | @failed r hpend =>
      obtain ⟨hseq, -, -⟩ := h.busy_ok r (by simp [hpend, reservation])
      exact { h with idle_ok := fun _ => hseq, busy_ok := by simp [reservation] }
    | @transmitted r hpend =>
      refine { h with idle_ok := by simp [reservation], busy_ok := ?_ }
      simpa [hpend, reservation] using h.busy_ok
    | @emplaced r packet hpend =>
      obtain ⟨hseq, hnext, hroom⟩ := h.busy_ok r (by simp [hpend, reservation])
      refine ⟨?_, fun _ => by simpa [commit] using hnext, by simp [reservation],
        h.bounded, (List.length_append ..).trans_le hroom⟩
      intro k x hx
      rcases Keyed.getElem?_concat.1 hx with hx | ⟨rfl, rfl⟩
      · exact h.numbered k x hx
      · exact hseq
    | timeout packet resent =>
      exact h.of_callback (nextSequence_handleTimeout _ _ _)
        (length_handleTimeout_le _ _ _) (h.bounded.handleTimeout packet resent)
    | delivered packet rtt =>
      exact h.of_callback (nextSequence_handleDelivered _ _ _)
        (length_handleDelivered_le _ _ _) (h.bounded.handleDelivered packet rtt)

/-- **Bookkeeping.**  Whatever the link and the application do, the books are in order. -/
theorem bookkept (rtt : ℚ) (calls : List (SenderCall M)) :
    Run.Always call Bookkept (new rtt : Sender M) calls := by
  refine (Run.always_of_step (I := Books) (fun _ e h => h.call e) (.init rtt) calls).mono ?_
  intro s h
  exact ⟨h.numbered, fun o msg callbacks => channel_of_failed o msg, h.bounded.2, h.ring⟩

end Sender

end Reticulum

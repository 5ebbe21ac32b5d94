import Reticulum.Core.Bytes
import Reticulum.Core.Run

/-!
# The event queue of the library

Events wait in a queue of limited capacity until they are polled (`pkg/librns/queue.go`).  Into a
full queue an event with priority is put in the place of the first one without, or else of the
oldest one; any other event is dropped.  Nothing else is lost (**`conserves_events`**).

A call of `poll` that finds nothing arms a timer and waits.  The callback of the timer does not take
the lock, and may be over before the call waits (`expired_before_waiting`).  This is the only way to
leave a call behind (`not_stranded`).
-/

namespace Reticulum.Librns

open List

/-! ## Events -/

structure Event where
  kind : ℤ
  linkID : Bytes
  destinationHash : Bytes
  identityHash : Bytes
  requestID : Bytes
  appData : Bytes
  path : String
  hops : UInt8
  errorMessage : String
deriving DecidableEq

/-- Destination data, link data, a resource that is concluded or started, a link that is
established, a request and a response. -/
def isPriorityEvent (kind : ℤ) : Bool := kind ∈ [11, 4, 10, 9, 2, 6, 7]

def cloneEvent (ev : Event) : Event where
  kind := ev.kind
  linkID := ev.linkID
  destinationHash := ev.destinationHash
  identityHash := ev.identityHash
  requestID := ev.requestID
  appData := ev.appData
  path := ev.path
  hops := ev.hops
  errorMessage := ev.errorMessage

def defaultQueueCapacity : ℕ := 4096

structure EventQueue where
  events : List Event
  cap : ℕ
  closed : Bool
  drops : UInt64
deriving DecidableEq

namespace EventQueue

variable (q : EventQueue)

def new (capacity : ℤ) : EventQueue :=
  ⟨[], if capacity ≤ 0 then defaultQueueCapacity else capacity.toNat, false, 0⟩

def close : EventQueue := { q with closed := true }

/-- The events of a full queue without the one that makes room. -/
def evict (events : List Event) : List Event :=
  if events.all (isPriorityEvent ·.kind) then events.tail
  else events.eraseP (!isPriorityEvent ·.kind)

def push (ev : Event) : EventQueue :=
  if q.closed then q
  else if q.events.length ≥ q.cap then
    if !isPriorityEvent ev.kind then { q with drops := q.drops + 1 }
    else { q with events := evict q.events ++ [cloneEvent ev], drops := q.drops + 1 }
  else { q with events := q.events ++ [cloneEvent ev] }

def tryDequeue : Option Event × EventQueue :=
  (q.events.head?, { q with events := q.events.tail })

/-- **What a push does** to a queue that is open: some events are lost, which are counted, and one
with priority only if it is the oldest of a queue of such events. -/
structure Loses (ev : Event) (lost : List Event) : Prop where
  length_le : q.events.length ≤ q.cap → (q.push ev).events.length ≤ q.cap
  sublist : (q.push ev).events <+ q.events ++ [ev]
  perm : (q.push ev).events ++ lost ~ q.events ++ [ev]
  drops_eq : (q.push ev).drops = q.drops + .ofNat lost.length
  oldest : ∀ e ∈ lost, isPriorityEvent e.kind = true →
    q.events.head? = some e ∧ ∀ x ∈ q.events, isPriorityEvent x.kind = true

lemma exists_evict {events : List Event} (hne : events ≠ []) :
    ∃ e, evict events ++ [e] ~ events ∧ evict events <+ events ∧ (isPriorityEvent e.kind →
        events.head? = some e ∧ ∀ x ∈ events, isPriorityEvent x.kind) := by
  unfold evict
  split_ifs with hall
  · obtain ⟨e, rest, rfl⟩ := exists_cons_of_ne_nil hne
    exact ⟨e, perm_append_comm, sublist_cons_self e rest, fun _ => ⟨rfl, by simpa using hall⟩⟩
  · obtain ⟨x, hx, hlow⟩ : ∃ x ∈ events, (!isPriorityEvent x.kind) := by
      simpa using hall
    obtain ⟨e, pre, post, -, he, heq, herase⟩ :=
      exists_of_eraseP (p := (!isPriorityEvent ·.kind)) hx hlow
    refine ⟨e, ?_, eraseP_sublist, fun hprio => by simp [hprio] at he⟩
    rw [herase, heq, append_assoc]
    exact perm_append_comm.append_left pre

lemma exists_loses (hopen : q.closed = false) (hcap : 0 < q.cap) (ev : Event) :
    ∃ lost, q.Loses ev lost := by
  by_cases hfull : q.events.length ≥ q.cap
  · cases hprio : isPriorityEvent ev.kind with
    | false =>
      have hpush : q.push ev = { q with drops := q.drops + 1 } := by
        simp [push, hopen, hfull, hprio]
      exact ⟨[ev], ⟨by simp [hpush], by simp [hpush], by simp [hpush], by simp [hpush],
        by simp [hprio]⟩⟩
    | true =>
      obtain ⟨e, hperm, hsub, hold⟩ := exists_evict (ne_nil_of_length_pos (hcap.trans_le hfull))
      have hpush : q.push ev =
          { q with events := evict q.events ++ [ev], drops := q.drops + 1 } := by
        simp [push, hopen, hfull, hprio, cloneEvent]
      have hlen := hperm.length_eq
      refine ⟨[e], ⟨?_, ?_, ?_, by simp [hpush], by simpa using hold⟩⟩
      · simp_all
      · simpa [hpush] using hsub
      · rw [hpush, append_assoc]
        refine (perm_append_comm.append_left (evict q.events)).trans ?_
        rw [← append_assoc]
        exact hperm.append_right [ev]
  · have hpush : q.push ev = { q with events := q.events ++ [ev] } := by
      simp [push, hopen, hfull, cloneEvent]
    exact ⟨[], ⟨by simp [hpush]; omega, by simp [hpush], by simp [hpush], by simp [hpush], by simp⟩⟩

lemma push_cap (ev : Event) : (q.push ev).cap = q.cap := by
  unfold push
  split_ifs <;> rfl

end EventQueue

/-! ## Runs -/

inductive QueueCall where
  | push (ev : Event)
  | poll
  | close
deriving DecidableEq

/-- The queue, what was pushed while it was open, and what was polled. -/
structure EventHistory where
  queue : EventQueue
  pushed : List Event
  polled : List Event

namespace EventHistory

def new (capacity : ℤ) : EventHistory := ⟨.new capacity, [], []⟩

def step (h : EventHistory) : QueueCall → EventHistory
  | .push ev =>
    ⟨h.queue.push ev, if h.queue.closed then h.pushed else h.pushed ++ [ev], h.polled⟩
  | .poll => ⟨h.queue.tryDequeue.2, h.pushed, h.polled ++ h.queue.tryDequeue.1.toList⟩
  | .close => { h with queue := h.queue.close }

def kept (h : EventHistory) : List Event := h.polled ++ h.queue.events

/-- What is polled or still queued was pushed, in this order, and what is missing is counted. -/
structure Conserved (h : EventHistory) : Prop where
  cap_pos : 0 < h.queue.cap
  length_le : h.queue.events.length ≤ h.queue.cap
  sublist : h.kept <+ h.pushed
  drops_eq : h.queue.drops = .ofNat (h.pushed.length - h.kept.length)

variable {h : EventHistory}

lemma Conserved.push (hc : h.Conserved) (ev : Event) : (h.step (.push ev)).Conserved := by
  cases hclosed : h.queue.closed with
  | true =>
    have hstep : h.step (.push ev) = h := by simp [step, EventQueue.push, hclosed]
    rwa [hstep]
  | false =>
    obtain ⟨lost, hl⟩ := h.queue.exists_loses hclosed hc.cap_pos ev
    have hpushed : (h.step (.push ev)).pushed = h.pushed ++ [ev] := by
      simp [step, hclosed]
    have hcap := h.queue.push_cap ev
    have hlen := hl.perm.length_eq
    have hle := hc.sublist.length_le
    refine ⟨hcap ▸ hc.cap_pos, hcap ▸ hl.length_le hc.length_le, ?_, ?_⟩
    · rw [hpushed]
      refine (hl.sublist.append_left h.polled).trans ?_
      rw [← append_assoc]
      exact hc.sublist.append_right [ev]
    · rw [hpushed]
      refine hl.drops_eq.trans ?_
      rw [hc.drops_eq, ← UInt64.ofNat_add]
      simp only [kept, step, length_append] at hlen hle ⊢
      congr 1
      omega

lemma Conserved.step (hc : h.Conserved) (c : QueueCall) : (h.step c).Conserved := by
  cases c with
  | push ev => exact hc.push ev
  | poll =>
    have hkept : (h.step .poll).kept = h.kept := by
      simp only [kept, EventHistory.step, EventQueue.tryDequeue, append_assoc]
      cases h.queue.events <;> rfl
    exact ⟨hc.cap_pos, (tail_sublist _).length_le.trans hc.length_le, hkept ▸ hc.sublist,
      hkept ▸ hc.drops_eq⟩
  | close => exact { hc with }

/-- **The queue conserves events**, in every state of every run. -/
theorem conserves_events (capacity : ℤ) (cs : List QueueCall) :
    Run.Always step (fun h => h.Conserved ∧
      (h.queue.closed = false → ∀ ev, ∃ lost, h.queue.Loses ev lost)) (new capacity) cs := by
  have hnew : (new capacity).Conserved := by
    refine ⟨?_, Nat.zero_le _, .slnil, rfl⟩
    simp only [new, EventQueue.new, defaultQueueCapacity]
    split_ifs <;> omega
  exact (Run.always_of_step (fun _ c h => h.step c) hnew cs).mono fun h hc =>
    ⟨hc, fun hopen => h.queue.exists_loses hopen hc.cap_pos⟩

end EventHistory

/-! ## Waiting -/

/-- `arming` and `registering` are stages with the lock, before and after the timer is armed;
a call that was `woken` has still to take the lock. -/
inductive PollStage where
  | arming | registering | waiting | woken | returned
deriving DecidableEq

/-- The timer of the last round of the loop: its callback has begun, has broadcast, and has closed
the channel. -/
inductive TimerStage where
  | armed | fired | broadcast | finished | stopped
deriving DecidableEq

/-- A call of `poll` with a timeout that has found the queue empty.  `late` counts the callbacks of
earlier rounds that have still to broadcast. -/
structure TimedPoll where
  stage : PollStage
  timer : TimerStage
  late : ℕ
  events : ℕ
  closed : Bool
deriving DecidableEq

/-- The other calls take the lock; a signal of `push` may wake another call up. -/
inductive PollEvent where
  | arm (expired : Bool)
  | fire
  | broadcast
  | closeChannel
  | register
  | relock
  | lateBroadcast
  | push (wakes : Bool)
  | otherPoll
  | close
deriving DecidableEq

namespace TimedPoll

def start : TimedPoll := ⟨.arming, .stopped, 0, 0, false⟩

section

variable (s : TimedPoll)

def wake : TimedPoll := if s.stage = .waiting then { s with stage := .woken } else s

def locked : Bool := s.stage = .arming ∨ s.stage = .registering

/-- After `Wait` the timer is stopped, but not a callback that has begun. -/
def awake : TimedPoll :=
  if s.events > 0 then { s with stage := .returned, events := s.events - 1 }
  else if s.closed ∨ s.timer = .finished then { s with stage := .returned }
  else { s with
    stage := .arming
    timer := .stopped
    late := if s.timer = .fired then s.late + 1 else s.late }

def step : PollEvent → TimedPoll
  | .arm expired =>
    if s.stage ≠ .arming then s
    else if expired then { s with stage := .returned }
    else { s with stage := .registering, timer := .armed }
  | .fire => if s.timer = .armed then { s with timer := .fired } else s
  | .broadcast => if s.timer = .fired then { s.wake with timer := .broadcast } else s
  | .closeChannel => if s.timer = .broadcast then { s with timer := .finished } else s
  | .register => if s.stage = .registering then { s with stage := .waiting } else s
  | .relock => if s.stage = .woken then s.awake else s
  | .lateBroadcast => if s.late > 0 then { s.wake with late := s.late - 1 } else s
  | .push wakes =>
    if s.locked ∨ s.closed then s
    else if wakes then { s.wake with events := s.events + 1 }
    else { s with events := s.events + 1 }
  | .otherPoll => if s.locked then s else { s with events := s.events - 1 }
  | .close => if s.locked then s else { s.wake with closed := true }

/-- The call waits, and the callback that was to wake it up is over. -/
def Stranded : Prop := s.stage = .waiting ∧ s.timer = .finished

/-- The callback does not broadcast between the arming of the timer and the wait. -/
def NotEarly (e : PollEvent) : Prop := e = .broadcast → s.stage ≠ .registering

instance instDecidableNotEarly (e : PollEvent) : Decidable (s.NotEarly e) :=
  inferInstanceAs (Decidable (_ → _))

def Inv : Prop :=
  s.stage = .registering ∨ s.stage = .waiting → s.timer = .armed ∨ s.timer = .fired

end

lemma Inv.wake {s : TimedPoll} (h : s.Inv) : s.wake.Inv := by
  unfold TimedPoll.wake
  split_ifs
  · simp [Inv]
  · exact h

/-- An event that is not possible changes nothing. -/
lemma Inv.guard {s s' : TimedPoll} {p : Prop} [Decidable p] (h : s.Inv) (h' : p → s'.Inv) :
    (if p then s' else s).Inv := by
  split_ifs with hp
  · exact h' hp
  · exact h

lemma Inv.step {s : TimedPoll} {e : PollEvent} (h : s.Inv) (he : s.NotEarly e) :
    (s.step e).Inv := by
  cases e with
  | arm expired =>
    simp only [TimedPoll.step]
    split_ifs
    · exact h
    · simp [Inv]
    · simp [Inv]
  | fire => exact h.guard fun _ => by simp [Inv]
  | broadcast =>
    -- the call does not wait after the broadcast, and is not about to
    refine h.guard fun _ => ?_
    have hnot : s.stage ≠ .registering := he rfl
    unfold Inv TimedPoll.wake
    split_ifs with hwaiting
    · simp
    · simp [hnot, hwaiting]
  | closeChannel =>
    -- after the broadcast there was no call to be woken up
    exact h.guard fun htimer hstage => absurd (h hstage) (by simp [htimer])
  | register => exact h.guard fun hstage _ => h (.inl hstage)
  | relock =>
    refine h.guard fun _ => ?_
    unfold awake
    split_ifs <;> simp [Inv]
  | lateBroadcast => exact h.guard fun _ => h.wake
  | push wakes =>
    simp only [TimedPoll.step]
    split_ifs
    · exact h
    · exact h.wake
    · exact h
  | otherPoll =>
    simp only [TimedPoll.step]
    split_ifs <;> exact h
  | close =>
    simp only [TimedPoll.step]
    split_ifs
    · exact h
    · exact h.wake

/-- **No call of `poll` is left waiting after its timer**, if the callback never comes early. -/
theorem not_stranded {es : List PollEvent} (hes : Run.Along step NotEarly start es) :
    Run.Always step (¬·.Stranded) start es := by
  have hstart : start.Inv := by simp [Inv, start]
  refine (Run.always_of_along (fun _ _ h he => .step h he) hstart hes).mono ?_
  rintro s h ⟨hstage, htimer⟩
  have := h (.inr hstage)
  simp [htimer] at this

theorem not_stranded_timeout : Run.Always step (¬·.Stranded) start
    [.arm false, .register, .fire, .broadcast, .closeChannel, .relock] :=
  not_stranded (by decide)

/-- The timer expires before the call waits. -/
theorem expired_before_waiting :
    (Run.exec step start [.arm false, .fire, .broadcast, .closeChannel, .register]).Stranded := by
  unfold Stranded
  decide

end TimedPoll

end Reticulum.Librns

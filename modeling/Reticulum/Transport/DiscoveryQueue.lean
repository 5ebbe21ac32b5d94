import Reticulum.Core.Bytes
import Reticulum.Core.Run

/-!
# The queue of discovery path requests

`queueDiscoveryPathRequest` puts a path request into a queue and starts a **drainer** if none is
running; `drainDiscoveryPRs` takes the requests out and ends when the queue is empty
(`pkg/transport/relay.go`).  Whether a drainer is running is said by a flag, which the drainer
clears after it has given the lock back.  A request that is queued in between stays
(`DiscoveryQueue.wakeup_lost`); there is no other way (**`DiscoveryQueue.drained_of_allowed`**).

An event is one access to what is shared: a section under the lock, or one operation on the flag.
-/

namespace Reticulum

/-! ## Calls and drainers -/

def maxQueuedDiscoveryPRs : ℕ := 32

structure PendingDiscoveryPR where
  destHash : Bytes
  exclude : Option ℕ
deriving DecidableEq

/-- How far the call that has the lock has got: the request is in the queue, the flag has been read,
the flag has been set. -/
inductive QueueCallStage where
  | appended
  | loaded (shouldStart : Bool)
  | stored
deriving DecidableEq

/-- How far a drainer has got: it looks whether the node is stopped, looks at the queue, sends a
request, waits for the next turn, or has left the loop and has the flag to clear. -/
inductive DrainStage where
  | top
  | locking
  | sending (entry : PendingDiscoveryPR)
  | waiting
  | returning
deriving DecidableEq

/-- The drainer will look at the queue once more, if the node is not stopped meanwhile. -/
def DrainStage.inspects (d : DrainStage) (done : Bool) : Bool :=
  match d with
  | .locking => true
  | .returning => false
  | _ => !done

structure DiscoveryQueue where
  pendingDiscoveryPRs : List PendingDiscoveryPR
  discoveryDraining : Bool
  /-- the channel that is closed when the node stops -/
  done : Bool
  /-- the call that has the lock -/
  call : Option QueueCallStage
  /-- calls that have given the lock back and start a drainer next -/
  starting : ℕ
  drainers : List DrainStage
deriving DecidableEq

/-- A call takes the lock; the next step of the call that has it; a drainer is started; the next
step of a drainer; the node is stopped. -/
inductive DiscoveryQueueEvent where
  | queue (entry : PendingDiscoveryPR)
  | call
  | start
  | drain (n : ℕ)
  | stop
deriving DecidableEq

namespace DiscoveryQueue

def empty : DiscoveryQueue where
  pendingDiscoveryPRs := []
  discoveryDraining := false
  done := false
  call := none
  starting := 0
  drainers := []

section

variable (s : DiscoveryQueue)

/-- `queueDiscoveryPathRequest` up to the request in the queue.  If the queue is full the call
returns. -/
def queueDiscoveryPathRequest (entry : PendingDiscoveryPR) : DiscoveryQueue :=
  if s.call.isSome then s
  else if maxQueuedDiscoveryPRs ≤ s.pendingDiscoveryPRs.length then s
  else
    { s with
      pendingDiscoveryPRs := s.pendingDiscoveryPRs ++ [entry]
      call := some .appended }

def callStep : DiscoveryQueue :=
  match s.call with
  | none => s
  | some .appended => { s with call := some (.loaded !s.discoveryDraining) }
  | some (.loaded true) => { s with discoveryDraining := true, call := some .stored }
  | some (.loaded false) => { s with call := none }
  | some .stored => { s with call := none, starting := s.starting + 1 }

/-- `drainDiscoveryPRs`, step by step.  The queue can be looked at only while no call has the
lock. -/
def drainStep (n : ℕ) : DiscoveryQueue :=
  match s.drainers[n]? with
  | none => s
  | some .top =>
    { s with drainers := s.drainers.set n (if s.done then .returning else .locking) }
  | some .locking =>
    if s.call.isSome then s
    else
      match s.pendingDiscoveryPRs with
      | [] => { s with drainers := s.drainers.set n .returning }
      | entry :: rest =>
        { s with
          pendingDiscoveryPRs := rest
          drainers := s.drainers.set n (.sending entry) }
  | some (.sending _) => { s with drainers := s.drainers.set n .waiting }
  | some .waiting => { s with drainers := s.drainers.set n (if s.done then .returning else .top) }
  | some .returning =>
    { s with discoveryDraining := false, drainers := s.drainers.eraseIdx n }

def step : DiscoveryQueueEvent → DiscoveryQueue
  | .queue entry => s.queueDiscoveryPathRequest entry
  | .call => s.callStep
  | .start =>
    if s.starting = 0 then s
    else { s with starting := s.starting - 1, drainers := s.drainers ++ [.top] }
  | .drain n => s.drainStep n
  | .stop => { s with done := true }

/-! ## What is to hold -/

def Drained : Prop :=
  s.pendingDiscoveryPRs ≠ [] → s.call = none → s.starting = 0 →
    ∃ d ∈ s.drainers, d.inspects s.done = true

/-- No request is queued while a drainer has the flag to clear, and the node is not stopped. -/
def Allowed : DiscoveryQueueEvent → Prop
  | .queue _ => .returning ∉ s.drainers
  | .stop => False
  | _ => True

instance decidableAllowed (e : DiscoveryQueueEvent) : Decidable (s.Allowed e) := by
  cases e <;> unfold Allowed <;> infer_instance

/-! ## The invariant -/

def tokens : ℕ :=
  s.drainers.length + s.starting + if s.call = some .stored then 1 else 0

end

/-- The flag counts the drainers.  A call that has found the flag set can rely on it: the drainer is
not on its way out, and cannot turn before the call has given the lock back. -/
structure Inv (s : DiscoveryQueue) : Prop where
  running : s.done = false
  tokens : s.tokens = if s.discoveryDraining then 1 else 0
  appended : s.call = some .appended → .returning ∉ s.drainers
  loaded : ∀ b, s.call = some (.loaded b) → .returning ∉ s.drainers ∧ s.discoveryDraining = !b
  queued : s.pendingDiscoveryPRs ≠ [] → s.call = none → .returning ∉ s.drainers ∧ 0 < s.tokens

variable {s : DiscoveryQueue}

lemma inv_empty : empty.Inv where
  running := rfl
  tokens := rfl
  appended h := by cases h
  loaded b h := by cases h
  queued h := absurd rfl h

lemma Inv.drainers_cases (h : s.Inv) : s.drainers = [] ∨ ∃ d, s.drainers = [d] := by
  have htokens := h.tokens
  rw [DiscoveryQueue.tokens] at htokens
  match hd : s.drainers with
  | [] => exact .inl rfl
  | [d] => exact .inr ⟨d, rfl⟩
  | d :: e :: ds =>
    rw [hd] at htokens
    simp only [List.length_cons] at htokens
    split_ifs at htokens <;> omega

lemma Inv.drained (h : s.Inv) : s.Drained := by
  intro hne hcall hstarting
  obtain ⟨hreturning, htokens⟩ := h.queued hne hcall
  simp only [DiscoveryQueue.tokens, hstarting, hcall] at htokens
  obtain hnone | ⟨d, hd⟩ := h.drainers_cases
  · rw [hnone] at htokens
    exact absurd htokens (by simp)
  · rw [hd] at hreturning ⊢
    refine ⟨d, List.mem_singleton_self d, ?_⟩
    rw [h.running]
    cases d with
    | returning => exact absurd (List.mem_singleton_self _) hreturning
    | _ => rfl

/-! ## One step -/

lemma Inv.queue (h : s.Inv) {entry : PendingDiscoveryPR} (he : .returning ∉ s.drainers) :
    (s.queueDiscoveryPathRequest entry).Inv := by
  rw [queueDiscoveryPathRequest]
  split
  · exact h
  split
  · exact h
  next hfree hroom =>
    have hcall : s.call = none := by simpa using hfree
    have htokens := h.tokens
    simp only [DiscoveryQueue.tokens, hcall] at htokens
    refine ⟨h.running, ?_, fun _ => he, fun b hb => ?_, fun _ hb => ?_⟩
    · simpa [DiscoveryQueue.tokens] using htokens
    · cases hb
    · cases hb

lemma Inv.callStep (h : s.Inv) : s.callStep.Inv := by
  have htokens := h.tokens
  rw [DiscoveryQueue.callStep]
  match hcall : s.call with
  | none => exact h
  | some .appended =>
    simp only [DiscoveryQueue.tokens, hcall] at htokens
    refine ⟨h.running, ?_, fun hb => ?_, fun b hb => ?_, fun _ hb => ?_⟩
    · simpa [DiscoveryQueue.tokens] using htokens
    · cases hb
    · cases hb
      exact ⟨h.appended hcall, by simp⟩
    · cases hb
  | some (.loaded true) =>
    obtain ⟨-, hflag⟩ := h.loaded true hcall
    simp only [DiscoveryQueue.tokens, hflag, if_false, Bool.not_true, Bool.false_eq_true] at htokens
    refine ⟨h.running, ?_, fun hb => ?_, fun b hb => ?_, fun _ hb => ?_⟩
    · simp only [DiscoveryQueue.tokens]
      omega
    · cases hb
    · cases hb
    · cases hb
  | some (.loaded false) =>
    obtain ⟨hreturning, hflag⟩ := h.loaded false hcall
    simp only [DiscoveryQueue.tokens, hcall, hflag] at htokens
    have hone : DiscoveryQueue.tokens { s with call := none } = 1 := by
      simpa [DiscoveryQueue.tokens] using htokens
    refine ⟨h.running, ?_, fun hb => ?_, fun b hb => ?_, fun _ _ => ⟨hreturning, ?_⟩⟩
    · rw [hone, hflag]
      rfl
    · cases hb
    · cases hb
    · exact hone ▸ Nat.one_pos
  | some .stored =>
    -- the call has set the flag, so there is no drainer yet
    have hnone : s.drainers = [] := by
      simp only [DiscoveryQueue.tokens, hcall, if_true] at htokens
      refine List.eq_nil_of_length_eq_zero ?_
      split at htokens <;> omega
    have hsame : DiscoveryQueue.tokens { s with call := none, starting := s.starting + 1 } =
        s.tokens := by
      simp only [DiscoveryQueue.tokens, hcall, reduceCtorEq, if_false, if_true]
      omega
    refine ⟨h.running, hsame.trans htokens, fun hb => ?_, fun b hb => ?_, fun _ _ => ⟨?_, ?_⟩⟩
    · cases hb
    · cases hb
    · simp [hnone]
    · exact Nat.succ_pos _

lemma Inv.start (h : s.Inv) : (s.step .start).Inv := by
  rw [step]
  split
  · exact h
  next hpos =>
    have hsame : DiscoveryQueue.tokens
        { s with starting := s.starting - 1, drainers := s.drainers ++ [.top] } = s.tokens := by
      simp only [DiscoveryQueue.tokens, List.length_append, List.length_singleton]
      omega
    have hout : .returning ∉ s.drainers → .returning ∉ s.drainers ++ [.top] := by
      simp
    refine ⟨h.running, hsame.trans h.tokens, fun hb => hout (h.appended hb), fun b hb => ?_,
      fun hne hb => ?_⟩
    · exact ⟨hout (h.loaded b hb).1, (h.loaded b hb).2⟩
    · rw [hsame]
      exact ⟨hout (h.queued hne hb).1, (h.queued hne hb).2⟩

lemma drainStep_cases (hdone : s.done = false) (n : ℕ) :
    s.drainStep n = s ∨
    (∃ d, d ≠ .returning ∧ s.drainStep n = { s with drainers := s.drainers.set n d }) ∨
    (∃ entry rest, s.call = none ∧ s.pendingDiscoveryPRs = entry :: rest ∧
      s.drainStep n =
        { s with pendingDiscoveryPRs := rest, drainers := s.drainers.set n (.sending entry) }) ∨
    (s.call = none ∧ s.pendingDiscoveryPRs = [] ∧
      s.drainStep n = { s with drainers := s.drainers.set n .returning }) ∨
    (s.drainers[n]? = some .returning ∧
      s.drainStep n =
        { s with discoveryDraining := false, drainers := s.drainers.eraseIdx n }) := by
  rw [drainStep]
  match hd : s.drainers[n]? with
  | none => exact .inl rfl
  | some .top =>
    refine .inr (.inl ⟨.locking, by simp, ?_⟩)
    simp [hdone]
  | some (.sending entry) => exact .inr (.inl ⟨.waiting, by simp, rfl⟩)
  | some .waiting =>
    refine .inr (.inl ⟨.top, by simp, ?_⟩)
    simp [hdone]
  | some .returning => exact .inr (.inr (.inr (.inr ⟨rfl, rfl⟩)))
  | some .locking =>
    by_cases hcall : s.call = none
    · match hqueue : s.pendingDiscoveryPRs with
      | [] => exact .inr (.inr (.inr (.inl ⟨hcall, rfl, by simp [hcall]⟩)))
      | entry :: rest =>
        exact .inr (.inr (.inl ⟨entry, rest, hcall, rfl, by simp [hcall]⟩))
    · simp [hcall]

lemma tokens_set (n : ℕ) (d : DrainStage) :
    tokens { s with drainers := s.drainers.set n d } = s.tokens := by
  simp [tokens]

lemma Inv.move (h : s.Inv) {n : ℕ} {d : DrainStage} (hd : d ≠ .returning) :
    Inv { s with drainers := s.drainers.set n d } := by
  have hout : .returning ∉ s.drainers → .returning ∉ s.drainers.set n d := by
    intro hnot hmem
    obtain hmem | heq := List.mem_or_eq_of_mem_set hmem
    · exact hnot hmem
    · exact hd heq.symm
  refine ⟨h.running, ?_, fun hb => hout (h.appended hb), fun b hb => ?_, fun hne hb => ?_⟩
  · exact (tokens_set n d).trans h.tokens
  · exact ⟨hout (h.loaded b hb).1, (h.loaded b hb).2⟩
  · rw [tokens_set n d]
    exact ⟨hout (h.queued hne hb).1, (h.queued hne hb).2⟩

lemma Inv.clear (h : s.Inv) {n : ℕ} (hd : s.drainers[n]? = some .returning) :
    Inv { s with discoveryDraining := false, drainers := s.drainers.eraseIdx n } := by
  have hmem : .returning ∈ s.drainers := List.mem_of_getElem? hd
  have hn : n < s.drainers.length := (getElem?_eq_some_iff.mp hd).1
  have hzero : DiscoveryQueue.tokens
      { s with discoveryDraining := false, drainers := s.drainers.eraseIdx n } = 0 := by
    have htokens := h.tokens
    simp only [DiscoveryQueue.tokens, List.length_eraseIdx_of_lt hn] at htokens ⊢
    split_ifs at htokens ⊢ <;> omega
  refine ⟨h.running, hzero, fun hb => ?_, fun b hb => ?_, fun hne hb => ?_⟩
  · exact absurd hmem (h.appended hb)
  · exact absurd hmem (h.loaded b hb).1
  · exact absurd hmem (h.queued hne hb).1

lemma Inv.drainStep (h : s.Inv) (n : ℕ) : (s.drainStep n).Inv := by
  obtain hs | ⟨d, hd, hs⟩ | ⟨entry, rest, hcall, hqueue, hs⟩ | ⟨hcall, hqueue, hs⟩ | ⟨hd, hs⟩ :=
    drainStep_cases h.running n <;> rw [hs]
  · exact h
  · exact h.move hd
  · have hmove : Inv { s with drainers := s.drainers.set n (.sending entry) } :=
      h.move (by simp)
    refine { hmove with queued := fun _ hb => ?_ }
    exact hmove.queued (by simp [hqueue]) hb
  · -- the way out of the loop: the queue is empty, and no call has the lock
    refine ⟨h.running, (tokens_set n _).trans h.tokens, fun hb => ?_, fun b hb => ?_,
      fun hne _ => absurd hqueue hne⟩
    · simp [hcall] at hb
    · simp [hcall] at hb
  · exact h.clear hd

/-- **One step** keeps the invariant, if it is allowed. -/
lemma Inv.step (h : s.Inv) {e : DiscoveryQueueEvent} (he : s.Allowed e) : (s.step e).Inv := by
  cases e with
  | queue entry => exact h.queue he
  | call => exact h.callStep
  | start => exact h.start
  | drain n => exact h.drainStep n
  | stop => exact he.elim

/-- **The queue does not lose its drainer** in a run in which no request is queued while a drainer
is on its way out. -/
theorem drained_of_allowed (es : List DiscoveryQueueEvent) (h : Run.Along step Allowed empty es) :
    Run.Always step Drained empty es :=
  (Run.always_of_along (fun _ _ hs he => hs.step he) inv_empty h).mono
    fun _ hs => hs.drained

/-! ## A request between the two -/

/-- A request that is queued and drained, up to the drainer that has found the queue empty. -/
def drainedOnce : List DiscoveryQueueEvent :=
  [.queue ⟨[1], none⟩, .call, .call, .call, .start, .drain 0, .drain 0, .drain 0, .drain 0,
    .drain 0, .drain 0]

/-- Once the flag is cleared, the next request starts a drainer of its own. -/
theorem drained_of_two :
    let es := drainedOnce ++ [.drain 0, .queue ⟨[2], none⟩, .call, .call, .call, .start]
    Run.Always step Drained empty es ∧
      (Run.exec step empty es).pendingDiscoveryPRs = [⟨[2], none⟩] :=
  ⟨drained_of_allowed _ (by decide), by decide⟩

/-- **The wakeup is lost**: the second request is queued before the flag is cleared.  It stays in
the queue, and nobody looks at it. -/
theorem wakeup_lost :
    let s := Run.exec step empty
      (drainedOnce ++ [.queue ⟨[2], none⟩, .call, .call, .drain 0])
    s.pendingDiscoveryPRs = [⟨[2], none⟩] ∧ s.call = none ∧ s.starting = 0 ∧ s.drainers = [] ∧
      ¬ s.Drained := by
  intro s
  have hqueue : s.pendingDiscoveryPRs = [⟨[2], none⟩] := by decide
  have hcall : s.call = none := by decide
  have hstarting : s.starting = 0 := by decide
  have hnone : s.drainers = [] := by decide
  refine ⟨hqueue, hcall, hstarting, hnone, fun h => ?_⟩
  obtain ⟨d, hd, -⟩ := h (by simp [hqueue]) hcall hstarting
  cases hd

end DiscoveryQueue

end Reticulum

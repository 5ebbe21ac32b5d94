import Mathlib.Algebra.Order.Group.Int
import Mathlib.Data.List.Perm.Basic
import Reticulum.Core.Run

/-!
# The inbound queues

Jobs for inbound packets wait in four queues, one for each traffic class
(`pkg/transport/inbound_queues.go`).  Where the queue of its class is full, `put` refuses a job and
counts it as **dropped**, and `putWait` waits; `get` takes the first job of the first queue that has
one.  The lock is held for one pass of a loop: `producers` are the calls of `putWait` between two
passes.

A blocking call that was refused at first is counted although its job is accepted later
(`acceptedLate_not_orderly`); otherwise the queues are in order: **`orderly_of_notLate`**.
-/

namespace Reticulum

inductive TrafficClass where
  | data
  | announce
  | pathRequest
  | ingressLimited
deriving DecidableEq

namespace TrafficClass

def number : TrafficClass → ℕ
  | data => 0
  | announce => 1
  | pathRequest => 2
  | ingressLimited => 3

def all : List TrafficClass := [data, announce, pathRequest, ingressLimited]

def defaultQueueLen : TrafficClass → ℕ
  | data => 1024
  | announce => 128
  | pathRequest => 128
  | ingressLimited => 8

end TrafficClass

structure Producer (J : Type) where
  tc : TrafficClass
  job : J
  submitted : Bool
  waited : Bool
deriving DecidableEq

/-- The queues, with the jobs of each class that were accepted and returned so far, and the number
of those that `submitInboundJob` has given up. -/
structure InboundQueues (J : Type) where
  queues : TrafficClass → List J
  sizes : TrafficClass → ℕ
  dropped : TrafficClass → UInt64
  producers : List (Producer J)
  accepted : TrafficClass → List J
  returned : TrafficClass → List J
  refused : TrafficClass → ℕ

/-- A call or a pass.  A call of `put` is one of `submitInboundJob` that may not block; `done` says
whether the node has been stopped. -/
inductive QueueEvent (J : Type) where
  | submit (tc : TrafficClass) (job : J) (block : Bool)
  | putWait (tc : TrafficClass) (job : J)
  | pass (i : ℕ) (done : Bool)
  | get

namespace InboundQueues

variable {J : Type}

def new (sizes : TrafficClass → ℤ) : InboundQueues J where
  queues _ := []
  sizes tc := if sizes tc ≤ 0 then tc.defaultQueueLen else (sizes tc).toNat
  dropped _ := 0
  producers := []
  accepted _ := []
  returned _ := []
  refused _ := 0

section

variable (q : InboundQueues J)

def append (tc : TrafficClass) (job : J) : InboundQueues J :=
  { q with
    queues := Function.update q.queues tc (q.queues tc ++ [job])
    accepted := Function.update q.accepted tc (q.accepted tc ++ [job]) }

def put (tc : TrafficClass) (job : J) : InboundQueues J × Bool :=
  if q.sizes tc ≤ (q.queues tc).length then
    ({ q with dropped := Function.update q.dropped tc (q.dropped tc + 1) }, false)
  else (q.append tc job, true)

/-- One pass of the loop of `putWait`, and what it returns.  The stop is looked for before the loop
begins again, and before it waits. -/
def putWait (p : Producer J) (done : Bool) : InboundQueues J × Option Bool :=
  if p.waited && done then (q, some false)
  else if (q.queues p.tc).length < q.sizes p.tc then (q.append p.tc p.job, some true)
  else if done then (q, some false)
  else (q, none)

def getLoop (q : InboundQueues J) : List TrafficClass → Option (TrafficClass × J × InboundQueues J)
  | [] => none
  | tc :: tcs =>
    match q.queues tc with
    | [] => getLoop q tcs
    | job :: rest =>
      some (tc, job,
        { q with
          queues := Function.update q.queues tc rest
          returned := Function.update q.returned tc (q.returned tc ++ [job]) })

def get : Option (TrafficClass × J × InboundQueues J) :=
  q.getLoop TrafficClass.all

def refuse (tc : TrafficClass) : InboundQueues J :=
  { q with refused := Function.update q.refused tc (q.refused tc + 1) }

def submitInboundJob (job : J) (tc : TrafficClass) (block : Bool) : InboundQueues J :=
  let (q, ok) := q.put tc job
  if ok then q
  else if block then { q with producers := q.producers ++ [⟨tc, job, true, false⟩] }
  else q.refuse tc

def pass (p : Producer J) (done : Bool) : InboundQueues J :=
  match q.putWait p done with
  | (q, none) => { q with producers := q.producers ++ [{ p with waited := true }] }
  | (q, some ok) => if p.submitted && !ok then q.refuse p.tc else q

def step : QueueEvent J → InboundQueues J
  | .submit tc job block => q.submitInboundJob job tc block
  | .putWait tc job => { q with producers := q.producers ++ [⟨tc, job, false, false⟩] }
  | .pass i done =>
    match q.producers[i]? with
    | none => q
    | some p => { q with producers := q.producers.eraseIdx i }.pass p done
  | .get => (q.get.map fun r => r.2.2).getD q

end

/-- **The queues are in order**: the jobs of a class leave as they were accepted, each once; no
class exceeds its limit; none has to wait for a lower one; and when no `submitInboundJob` is under
way, those of its jobs that were not enqueued are the dropped ones. -/
structure Orderly (q : InboundQueues J) : Prop where
  fifo : ∀ tc, q.accepted tc = q.returned tc ++ q.queues tc
  limit : ∀ tc, (q.queues tc).length ≤ q.sizes tc
  priority : ∀ r, q.get = some r → ∀ tc, tc.number < r.1.number → q.queues tc = []
  exact : (∀ p ∈ q.producers, p.submitted = false) → ∀ tc, q.dropped tc = .ofNat (q.refused tc)

/-- No job of `submitInboundJob` is accepted after it was refused: in each pass its class is full,
or the node was stopped while it waited. -/
def NotLate (q : InboundQueues J) : QueueEvent J → Prop
  | .pass i done => ∀ p, q.producers[i]? = some p → p.submitted = true →
      (p.waited && done) = true ∨ q.sizes p.tc ≤ (q.queues p.tc).length
  | _ => True

/-! ## Steps -/

def waiting (q : InboundQueues J) (tc : TrafficClass) : ℕ :=
  q.producers.countP fun p => p.submitted && p.tc == tc

structure Inv (q : InboundQueues J) : Prop where
  fifo : ∀ tc, q.accepted tc = q.returned tc ++ q.queues tc
  limit : ∀ tc, (q.queues tc).length ≤ q.sizes tc
  dropped : ∀ tc, q.dropped tc = .ofNat (q.refused tc + q.waiting tc)

variable {q : InboundQueues J}

lemma getLoop_priority {tcs : List TrafficClass} {r : TrafficClass × J × InboundQueues J}
    (hr : q.getLoop tcs = some r) (hsorted : (tcs.map TrafficClass.number).Pairwise (· < ·)) :
    ∀ tc ∈ tcs, tc.number < r.1.number → q.queues tc = [] := by
  induction tcs with
  | nil => cases hr
  | cons c tcs ih =>
    rw [List.map_cons, List.pairwise_cons] at hsorted
    rw [getLoop] at hr
    intro tc htc hlt
    split at hr
    · rename_i hnil
      rcases List.mem_cons.1 htc with rfl | htc
      · exact hnil
      · exact ih hr hsorted.2 tc htc hlt
    · obtain rfl := Option.some.inj hr
      rcases List.mem_cons.1 htc with rfl | htc
      · exact absurd hlt (lt_irrefl _)
      · exact absurd hlt (hsorted.1 _ (List.mem_map_of_mem htc)).not_gt

lemma Inv.orderly (h : Inv q) : Orderly q := { h with
  priority := fun r hr tc => getLoop_priority hr (by decide) tc (by cases tc <;> decide)
  exact := fun hnone tc => by
    have hzero : q.waiting tc = 0 := List.countP_eq_zero.2 fun p hp => by simp [hnone p hp]
    rw [h.dropped tc, hzero, Nat.add_zero] }

lemma Inv.append (h : Inv q) {tc : TrafficClass} (hroom : (q.queues tc).length < q.sizes tc)
    (job : J) : Inv (q.append tc job) where
  fifo c := by
    by_cases hc : c = tc
    · simp [InboundQueues.append, hc, h.fifo tc]
    · simpa [InboundQueues.append, hc] using h.fifo c
  limit c := by
    by_cases hc : c = tc
    · simpa [InboundQueues.append, hc, Nat.succ_le_iff] using hroom
    · simpa [InboundQueues.append, hc] using h.limit c
  dropped := h.dropped

lemma Inv.getLoop (h : Inv q) (tcs : List TrafficClass) :
    ∀ r, q.getLoop tcs = some r → Inv r.2.2 := by
  intro r hr
  induction tcs with
  | nil => cases hr
  | cons tc tcs ih =>
    rw [InboundQueues.getLoop] at hr
    split at hr
    · exact ih hr
    · rename_i job rest hqueue
      obtain rfl := Option.some.inj hr
      refine ⟨fun c => ?_, fun c => ?_, h.dropped⟩
      · by_cases hc : c = tc
        · simp [hc, h.fifo tc, hqueue]
        · simpa [hc] using h.fifo c
      · have hlimit := h.limit c
        by_cases hc : c = tc
        · subst hc
          rw [hqueue, List.length_cons] at hlimit
          simpa using Nat.le_of_succ_le hlimit
        · simpa [hc] using hlimit

lemma Inv.submit (h : Inv q) (job : J) (tc : TrafficClass) (block : Bool) :
    Inv (q.submitInboundJob job tc block) := by
  by_cases hfull : q.sizes tc ≤ (q.queues tc).length
  · cases block
    all_goals
      simp only [submitInboundJob, put, if_pos hfull]
      refine { h with dropped := fun c => ?_ }
      have hdropped := h.dropped c
      by_cases hc : c = tc
      · subst hc
        simp [hdropped, refuse, waiting]
        ac_rfl
      · simpa [refuse, waiting, hc, Ne.symm hc] using hdropped
  · simpa [submitInboundJob, put, if_neg hfull] using h.append (not_le.1 hfull) job

lemma Inv.pass (h : Inv q) {i : ℕ} {done : Bool} (he : q.NotLate (.pass i done)) :
    Inv (q.step (.pass i done)) := by
  simp only [step]
  split
  · exact h
  rename_i p hp
  have hlate := he p hp
  obtain ⟨hi, heq⟩ := getElem?_eq_some_iff.1 hp
  -- the call that makes a pass is one of those under way
  have hdropped (tc) : q.dropped tc = .ofNat (q.refused tc +
      ((if p.submitted && p.tc == tc then 1 else 0) +
        (q.producers.eraseIdx i).countP fun p => p.submitted && p.tc == tc)) := by
    rw [h.dropped, waiting, ← (List.getElem_cons_eraseIdx_perm hi).countP_eq, List.countP_cons, heq,
      Nat.add_comm (List.countP _ _)]
  have hgiveUp : Inv (if p.submitted then
      { q with producers := q.producers.eraseIdx i }.refuse p.tc
      else { q with producers := q.producers.eraseIdx i }) := by
    split
    all_goals
      rename_i hsub
      refine { h with dropped := fun tc => ?_ }
      have hdropped := hdropped tc
      by_cases htc : tc = p.tc
      · subst htc
        simp [hdropped, hsub, refuse, waiting, UInt64.add_assoc]
      · simpa [refuse, waiting, htc, Ne.symm htc] using hdropped
  rw [InboundQueues.pass, putWait]
  by_cases hstop : (p.waited && done)
  · simpa [hstop] using hgiveUp
  by_cases hroom : (q.queues p.tc).length < q.sizes p.tc
  · have hsub : p.submitted = false :=
      Bool.eq_false_iff.2 fun hsub => (hlate hsub).elim hstop hroom.not_ge
    rw [hsub] at hgiveUp
    simpa [hstop, hroom] using hgiveUp.append hroom p.job
  cases done
  · simp only [Bool.and_false, hroom]
    refine { h with dropped := fun tc => ?_ }
    simpa [waiting, Nat.add_comm] using hdropped tc
  · simpa [hroom] using hgiveUp

lemma Inv.step {e : QueueEvent J} (h : Inv q) (he : q.NotLate e) : Inv (q.step e) := by
  cases e with
  | submit tc job block => exact h.submit job tc block
  | putWait tc job =>
    exact { h with dropped := fun c => by simpa [InboundQueues.step, waiting] using h.dropped c }
  | pass i done => exact h.pass he
  | get =>
    simp only [InboundQueues.step]
    cases hr : q.get with
    | none => exact h
    | some r => exact h.getLoop _ r hr

/-- **The inbound queues** are in order as long as no job is accepted late. -/
theorem orderly_of_notLate (sizes : TrafficClass → ℤ) (es : List (QueueEvent J))
    (hes : Run.Along step NotLate (new sizes) es) : Run.Always step Orderly (new sizes) es := by
  have hnew : Inv (new sizes : InboundQueues J) := ⟨by simp [new], by simp [new], by simp [new,
    waiting]⟩
  exact (Run.always_of_along (fun _ _ h => h.step) hnew hes).mono fun _ h => h.orderly

/-- The queue for data has room for one job.  The second one waits until the node is stopped. -/
theorem orderly_of_stopped :
    Run.Always step Orderly (new fun _ => 1)
      [.submit .data 1 true, .submit .data 2 true, .pass 0 false, .pass 0 true, .get] := by
  refine orderly_of_notLate _ _ ⟨trivial, trivial, ?_, ?_, trivial, trivial⟩
  · rintro p ⟨⟩ _
    exact .inr (by decide)
  · rintro p ⟨⟩ _
    exact .inl rfl

/-- The job that was refused at first is accepted when there is room, and counted as dropped. -/
theorem acceptedLate_not_orderly :
    ¬ Run.Always step Orderly (new fun _ => 1)
      [.submit .data 1 true, .submit .data 2 true, .get, .pass 0 false] := by
  intro h
  have hexact := h.last.exact (by decide) .data
  revert hexact
  decide

end InboundQueues

end Reticulum

import Reticulum.Rate.Ingress

/-!
# Announce rate control

How often the announces of a destination are rebroadcast is bounded by an `AnnounceRateControl`
(`pkg/rate`).  It keeps the times at which announces were **allowed**, for a day.  While there are
fewer of them than the *grace*, every announce is allowed; then it has to come a target interval
after the last one, and a penalty later still when there are more.  **`RateHistory.spaced_exec`**
says what this gives.  Times are whole nanoseconds.
-/

namespace Reticulum

open Rate.Constants

namespace Rate.Constants

def historyGraceThreshold : ℤ := 1
def day : ℕ := 24 * 60 * 60 * second

end Rate.Constants

/-- The target interval and the penalty are in seconds: rationals here, where the source has
`float64`. -/
structure AnnounceRateControl where
  rateTarget : ℚ
  rateGrace : ℤ
  ratePenalty : ℚ

variable {H : Type} [DecidableEq H] {arc : AnnounceRateControl} {d : H} {now : ℕ}

/-- The announces of the last day: the loop that trims a history. -/
def retained (now : ℕ) (history : List ℕ) : List ℕ := history.filter fun t => now < t + day

namespace AnnounceRateControl

variable (arc : AnnounceRateControl)

/-- How long after the last announce the next one has to come. -/
def waitTime (history : List ℕ) : ℚ :=
  if arc.rateGrace + historyGraceThreshold < history.length then arc.rateTarget + arc.ratePenalty
  else arc.rateTarget

/-- Whether an announce is allowed after those that are retained.  Without a grace, the first call
looks for the last one of none and panics. -/
def allows (history : List ℕ) (now : ℕ) : Option Bool :=
  if history.length < arc.rateGrace then some true
  else history.getLast?.map fun lastAnnounce =>
    !decide (((now : ℚ) - lastAnnounce) / second < arc.waitTime history)

/-- The histories after a call, and whether the announce is allowed.  The hashes `H` are the arrays
of 16 bytes. -/
def allowAnnounceHash (announceHistory : H → List ℕ) (destHash : H)
    (now : ℕ) : Option ((H → List ℕ) × Bool) :=
  if arc.rateTarget ≤ 0 then some (announceHistory, true)
  else
    let history := retained now (announceHistory destHash)
    (arc.allows history now).map fun ok =>
      (if ok then Function.update announceHistory destHash (history ++ [now])
        else announceHistory, ok)

end AnnounceRateControl

/-- What the control remembers of each destination, and the announces of it that were allowed. -/
structure RateHistory (H : Type) where
  announceHistory : H → List ℕ
  allowed : H → List ℕ

namespace RateHistory

open AnnounceRateControl

variable {s s' : RateHistory H} {es : List (H × ℕ)}

/-- One call for a destination, at a time; a panic changes nothing. -/
def step (arc : AnnounceRateControl) (s : RateHistory H) (e : H × ℕ) : RateHistory H :=
  match arc.allowAnnounceHash s.announceHistory e.1 e.2 with
  | none => s
  | some (announceHistory, ok) =>
    ⟨announceHistory,
      if ok then Function.update s.allowed e.1 (s.allowed e.1 ++ [e.2]) else s.allowed⟩

def new : RateHistory H := ⟨fun _ => [], fun _ => []⟩

/-- If the grace is used up within the last day, an announce that is allowed comes after the one
before by the target interval, and by the penalty in addition once the threshold is passed. -/
def Spaced (arc : AnnounceRateControl) (s : RateHistory H) (d : H) (now : ℕ) : Prop :=
  let history := retained now (s.allowed d)
  (arc.allowAnnounceHash s.announceHistory d now).map Prod.snd = some true →
    arc.rateGrace ≤ history.length →
    ∃ last, history.getLast? = some last ∧ arc.waitTime history ≤ ((now : ℚ) - last) / second

/-- The control forgets nothing that counts at this time. -/
def Kept (now : ℕ) (s : RateHistory H) : Prop :=
  ∀ d, retained now (s.announceHistory d) = retained now (s.allowed d)

lemma retained_append_of_le {t : ℕ} (hle : t ≤ now) {history allowed : List ℕ}
    (h : retained now history = retained now allowed) :
    retained now (retained t history ++ [t]) = retained now (allowed ++ [t]) := by
  have htrim : retained now (retained t history) = retained now history := by
    simp only [retained, List.filter_filter]
    refine List.filter_congr fun x _ => ?_
    simp only [Bool.and_eq_left_iff_imp, decide_eq_true_eq]
    omega
  simp only [retained, List.filter_append] at htrim h ⊢
  rw [htrim, h]

section On

variable (harc : 0 < arc.rateTarget)
include harc

lemma Kept.step {e : H × ℕ} (h : Kept now s) (hle : e.2 ≤ now) : Kept now (step arc s e) := by
  simp only [RateHistory.step, allowAnnounceHash, if_neg harc.not_ge]
  rcases arc.allows (retained e.2 (s.announceHistory e.1)) e.2 with _ | _ | _
  · exact h
  · simpa using h
  · intro d
    by_cases hd : d = e.1
    · subst hd
      simpa using retained_append_of_le hle (h e.1)
    · simpa [hd] using h d

lemma Kept.spaced (h : Kept now s) (d : H) : s.Spaced arc d now := by
  intro hallows hgrace
  simp only [allowAnnounceHash, allows, if_neg harc.not_ge, h d, if_neg hgrace.not_gt] at hallows
  cases hlast : (retained now (s.allowed d)).getLast? with
  | none => simp [hlast] at hallows
  | some last => exact ⟨last, rfl, by simpa [hlast] using hallows⟩

lemma announceHistory_exec (h : s.announceHistory d = s'.announceHistory d) :
    (Run.exec (step arc) s es).announceHistory d =
      (Run.exec (step arc) s' (es.filter fun e => e.1 = d)).announceHistory d := by
  induction es generalizing s s' with
  | nil => exact h
  | cons e es ih =>
    by_cases hd : e.1 = d
    · subst hd
      simp only [List.filter_cons, decide_true, if_true]
      refine ih ?_
      simp only [step, allowAnnounceHash, if_neg harc.not_ge, h]
      rcases arc.allows (retained e.2 (s'.announceHistory e.1)) e.2 with _ | _ | _ <;> simp [h]
    · simp only [List.filter_cons, hd, decide_false, Run.exec_cons]
      refine ih ?_
      simp only [step, allowAnnounceHash, if_neg harc.not_ge]
      rcases arc.allows (retained e.2 (s.announceHistory e.1)) e.2 with _ | _ | _ <;>
        simp [h, Ne.symm hd]

lemma spaced_of_on (hnow : ∀ e ∈ es, e.2 ≤ now) :
    (Run.exec (step arc) new es).Spaced arc d now := by
  have hkept := Run.always_of_along (fun _ _ h he => Kept.step harc h he)
    (fun _ => rfl : Kept now (new : RateHistory H)) (Run.along_of_forall hnow)
  exact hkept.last.spaced harc d

lemma decided_alone_of_on :
    (arc.allowAnnounceHash (Run.exec (step arc) new es).announceHistory d now).map
      Prod.snd = (arc.allowAnnounceHash (Run.exec (step arc) new
        (es.filter fun e => e.1 = d)).announceHistory d now).map Prod.snd := by
  simp only [allowAnnounceHash, if_neg harc.not_ge, Option.map_map, Function.comp_def]
  rw [announceHistory_exec harc rfl]

end On

/-- A control without a target allows everything, and remembers nothing. -/
lemma allowAnnounceHash_of_off (harc : arc.rateTarget ≤ 0) (history : H → List ℕ) :
    arc.allowAnnounceHash history d now = some (history, true) :=
  if_pos harc

/-- **Announces that are allowed keep their distance** while time does not go back, if there is a
target; without one, all are allowed.  What is decided of a destination depends on the calls for it
alone. -/
theorem spaced_exec (arc : AnnounceRateControl) (es : List (H × ℕ)) (d : H) (now : ℕ)
    (hmono : (es ++ [(d, now)]).Pairwise fun a b => a.2 ≤ b.2) :
    let decided := fun es => (arc.allowAnnounceHash
      (Run.exec (step arc) new es).announceHistory d now).map Prod.snd
    (0 < arc.rateTarget → (Run.exec (step arc) new es).Spaced arc d now) ∧
      (arc.rateTarget ≤ 0 → decided es = some true) ∧
      decided es = decided (es.filter fun e => e.1 = d) := by
  intro decided
  have hoff (harc : arc.rateTarget ≤ 0) (es) : decided es = some true :=
    congrArg (Option.map Prod.snd) (allowAnnounceHash_of_off harc _)
  refine ⟨fun harc => spaced_of_on harc fun e he => ?_, fun harc => hoff harc es, ?_⟩
  · exact (List.pairwise_append.1 hmono).2.2 e he (d, now) (List.mem_singleton_self _)
  · rcases lt_or_ge 0 arc.rateTarget with harc | harc
    · exact decided_alone_of_on harc
    · rw [hoff harc, hoff harc]

/-- With a grace of one and a target of a second, three announces of a destination pass the
threshold, whatever there is of another one: the fourth waits for the penalty of two seconds too. -/
theorem spaced_of_three :
    let arc : AnnounceRateControl := ⟨1, 1, 2⟩
    let s := Run.exec (step arc) new
      [(true, 0), (false, 0), (true, second), (false, second), (true, 2 * second)]
    s.allowed true = [0, second, 2 * second] ∧ s.allowed false = [0, second] ∧
      (arc.allowAnnounceHash s.announceHistory true (4 * second)).map Prod.snd = some false ∧
      (arc.allowAnnounceHash s.announceHistory true (5 * second)).map Prod.snd = some true ∧
      s.Spaced arc true (5 * second) := by
  intro arc s
  have hspaced := spaced_exec arc
    [(true, 0), (false, 0), (true, second), (false, second), (true, 2 * second)] true (5 * second)
    (by decide)
  exact ⟨by decide +kernel, by decide +kernel, by decide +kernel, by decide +kernel,
    hspaced.1 (by decide)⟩

/-- Without a target, the third announce does not wait for the penalty. -/
theorem penalty_ignored :
    ¬ (Run.exec (step ⟨0, 0, 1⟩) new [((), 0), ((), 0)]).Spaced ⟨0, 0, 1⟩ () 0 := by
  intro h
  obtain ⟨last, hlast, hwait⟩ := h rfl (by decide)
  obtain rfl : 0 = last := Option.some.inj hlast
  exact absurd hwait (by decide +kernel)

end RateHistory

end Reticulum

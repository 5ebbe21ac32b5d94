import Mathlib.Data.List.Basic
import Mathlib.Order.Basic

/-!
# Runs of a transition function

A component is a function `step : σ → ε → σ` from a state and an event to the next state; whatever
the environment decides is part of the event.  A **run** is then a list of events, and every
interleaving is one such list.

* `Always Q` — `Q` holds in the first state and in every state the run reaches after it.
* `Along P` — every event of the run is taken in a state for which `P` allows it.
-/

namespace Run

universe u v

variable {σ : Type u} {ε : Type v} {step : σ → ε → σ} {s : σ} {es : List ε} {P : σ → ε → Prop}
  {I Q : σ → Prop}

/-- The state reached from `s` by the events `es`, the first event first. -/
def exec (step : σ → ε → σ) (s : σ) (es : List ε) : σ := es.foldl step s

/-- `Q` holds in `s` and in every state that the run of `es` from `s` reaches. -/
def Always (step : σ → ε → σ) (Q : σ → Prop) : σ → List ε → Prop
  | s, [] => Q s
  | s, e :: es => Q s ∧ Always step Q (step s e) es

/-- Every event of the run of `es` from `s` happens in a state in which `P` allows it. -/
def Along (step : σ → ε → σ) (P : σ → ε → Prop) : σ → List ε → Prop
  | _, [] => True
  | s, e :: es => P s e ∧ Along step P (step s e) es

@[simp] lemma exec_nil (s : σ) : exec step s [] = s := rfl

@[simp] lemma exec_cons (s : σ) (e : ε) (es : List ε) :
    exec step s (e :: es) = exec step (step s e) es := rfl

lemma exec_append (s : σ) (es fs : List ε) :
    exec step s (es ++ fs) = exec step (exec step s es) fs :=
  List.foldl_append

@[simp] lemma along_nil (P : σ → ε → Prop) (s : σ) : Along step P s [] := trivial

@[simp] lemma along_cons (P : σ → ε → Prop) (s : σ) (e : ε) (es : List ε) :
    Along step P s (e :: es) ↔ P s e ∧ Along step P (step s e) es := .rfl

lemma along_append (P : σ → ε → Prop) (s : σ) (es fs : List ε) :
    Along step P s (es ++ fs) ↔ Along step P s es ∧ Along step P (exec step s es) fs := by
  induction es generalizing s with
  | nil => simp
  | cons e es ih => simp [ih, and_assoc]

/-- A condition on the events alone holds along a run if every event meets it. -/
lemma along_of_forall {P : ε → Prop} (h : ∀ e ∈ es, P e) : Along step (fun _ => P) s es := by
  induction es generalizing s with
  | nil => exact along_nil _ s
  | cons e es ih =>
    exact ⟨h e List.mem_cons_self, ih fun x hx => h x (List.mem_cons_of_mem e hx)⟩

lemma along_and {Q : σ → ε → Prop} (hP : Along step P s es) (hQ : Along step Q s es) :
    Along step (fun s e => P s e ∧ Q s e) s es := by
  induction es generalizing s with
  | nil => exact along_nil _ s
  | cons e es ih =>
    exact ⟨⟨hP.1, hQ.1⟩, ih hP.2 hQ.2⟩

/-- What follows from a condition and an invariant of the steps that meet it holds along a run. -/
lemma along_mono {Q : σ → ε → Prop} (hstep : ∀ s e, I s → P s e → I (step s e))
    (h : ∀ s e, I s → P s e → Q s e) (hs : I s) (hP : Along step P s es) : Along step Q s es := by
  induction es generalizing s with
  | nil => exact along_nil _ s
  | cons e es ih =>
    exact ⟨h s e hs hP.1, ih (hstep s e hs hP.1) hP.2⟩

/-- Two conditions that agree wherever an invariant of every step holds are met by the same runs. -/
lemma along_congr {Q : σ → ε → Prop} (hstep : ∀ s e, I s → I (step s e))
    (h : ∀ s e, I s → (P s e ↔ Q s e)) (hs : I s) (es : List ε) :
    Along step P s es ↔ Along step Q s es := by
  induction es generalizing s with
  | nil => exact .rfl
  | cons e es ih =>
    simp only [along_cons]
    rw [h s e hs, ih (hstep s e hs)]

/-- For a condition that can be computed it can be checked that a run meets it. -/
instance decidableAlong {P : σ → ε → Prop} [∀ s e, Decidable (P s e)] :
    ∀ (s : σ) (es : List ε), Decidable (Along step P s es)
  | _, [] => .isTrue trivial
  | s, e :: es =>
    have : Decidable (Along step P (step s e) es) := decidableAlong (step s e) es
    inferInstanceAs (Decidable (P s e ∧ Along step P (step s e) es))

/-! ## What `Always` says of the first and the last state -/

lemma Always.head (h : Always step Q s es) : Q s := by
  cases es with
  | nil => exact h
  | cons e es => exact h.1

lemma Always.last (h : Always step Q s es) : Q (exec step s es) := by
  induction es generalizing s with
  | nil => exact h
  | cons e es ih =>
    exact ih h.2

lemma Always.mono {Q' : σ → Prop} (hQ : ∀ s, Q s → Q' s) (h : Always step Q s es) :
    Always step Q' s es := by
  induction es generalizing s with
  | nil => exact hQ s h
  | cons e es ih =>
    exact ⟨hQ s h.1, ih h.2⟩

/-! ## The invariant rules -/

/-- **The invariant rule.**  An invariant of the first state that every allowed step keeps holds
in every state of an allowed run. -/
theorem always_of_along (hstep : ∀ s e, I s → P s e → I (step s e)) (hs : I s)
    (h : Along step P s es) : Always step I s es := by
  induction es generalizing s with
  | nil =>
    exact hs
  | cons e es ih =>
    exact ⟨hs, ih (hstep s e hs h.1) h.2⟩

/-- An invariant that every step keeps holds in every state of every run. -/
lemma always_of_step (hstep : ∀ s e, I s → I (step s e)) (hs : I s) (es : List ε) :
    Always step I s es :=
  always_of_along (fun s e h _ => hstep s e h) hs
    (along_of_forall fun _ _ => trivial)

lemma exec_of_step (hstep : ∀ s e, I s → I (step s e)) (hs : I s) (es : List ε) :
    I (exec step s es) :=
  (always_of_step hstep hs es).last

/-- **The exact rule.**  If the invariant `I` implies `Q`, allowed steps keep `I`, and a step that
is not allowed ends in a state without `Q`, then `Q` holds throughout a run exactly when every
step of the run is allowed. -/
theorem always_iff_along (hQ : ∀ s, I s → Q s) (hgood : ∀ s e, I s → P s e → I (step s e))
    (hbad : ∀ s e, I s → ¬ P s e → ¬ Q (step s e)) (hs : I s) :
    Always step Q s es ↔ Along step P s es := by
  constructor
  · intro h
    induction es generalizing s with
    | nil => exact along_nil P s
    | cons e es ih =>
      -- the first step is allowed, for otherwise `Q` is lost in the very next state
      have hP : P s e := by
        by_contra hP
        exact hbad s e hs hP h.2.head
      exact ⟨hP, ih (hgood s e hs hP) h.2⟩
  · intro h
    exact (always_of_along hgood hs h).mono hQ

end Run

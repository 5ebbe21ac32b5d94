import Mathlib.Tactic.Common

/-!
# Fallible computations

Code that can fail returns an `Except`.  A sequence of such computations succeeds exactly if each of
them does (`bind_eq_ok`), and a check in front of one lets it succeed exactly if it finds nothing
wrong (`ite_error_eq_ok`), which is how a successful call is taken apart.
-/

namespace Fallible

universe u v

variable {ε : Type u} {α β : Type v} {x : Except ε α}

lemma bind_eq_ok {f : α → Except ε β} {b : β} :
    (x >>= f) = .ok b ↔ ∃ a, x = .ok a ∧ f a = .ok b := by
  constructor
  · intro h
    cases x with
    | error err => cases h
    | ok a => exact ⟨a, rfl, h⟩
  · rintro ⟨a, rfl, h⟩
    exact h

lemma bind_eq_of_ok {a : α} (h : x = .ok a) (f : α → Except ε β) : (x >>= f) = f a := by
  subst h
  rfl

lemma ite_error_eq_ok {c : Prop} [Decidable c] {err : ε} {a : α} :
    (if c then .error err else x) = .ok a ↔ ¬ c ∧ x = .ok a := by
  by_cases hc : c
  · simp [hc]
  · simp [hc]

lemma map_eq_ok {f : α → β} {b : β} : x.map f = .ok b ↔ ∃ a, x = .ok a ∧ f a = b := by
  cases x with
  | error err | ok a => simp [Except.map]

lemma mapError_eq_ok {ε' : Type u} {f : ε → ε'} {a : α} : x.mapError f = .ok a ↔ x = .ok a := by
  cases x with
  | error err | ok b => simp [Except.mapError]

lemma exists_of_isOk (h : x.isOk) : ∃ a, x = .ok a := by
  cases x with
  | error err => cases h
  | ok a => exact ⟨a, rfl⟩

end Fallible

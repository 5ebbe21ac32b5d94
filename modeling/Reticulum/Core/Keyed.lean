import Mathlib.Data.List.Nodup
import Mathlib.Data.List.Perm.Basic

/-!
# Lists with a key

Rings and tables are lists whose entries carry a key, searched and cut at the **first** entry with
a given key.  Where the keys are pairwise distinct the first entry is the only one, and removing
it removes the key (`mem_eraseP_iff`).  Lists that grow at their end keep the places of their
entries (`getElem?_concat`).
-/

namespace Keyed

open List

universe u v

variable {α : Type u} {κ : Type v} [DecidableEq κ] {key : α → κ} {l : List α}

lemma find?_mem {k : κ} {x : α} (h : l.find? (key · = k) = some x) : x ∈ l ∧ key x = k :=
  ⟨mem_of_find?_eq_some h, by simpa using find?_some h⟩

lemma find?_eq_none {k : κ} : l.find? (key · = k) = none ↔ ∀ x ∈ l, key x ≠ k := by
  simp

lemma perm_cons_eraseP {k : κ} {x : α} (h : l.find? (key · = k) = some x) :
    l.Perm (x :: l.eraseP (key · = k)) := by
  induction l with
  | nil => simp at h
  | cons y l ih =>
    by_cases hy : key y = k
    · simp only [hy, decide_true, find?_cons_of_pos, Option.some.injEq] at h
      subst h
      simp [hy]
    · simp only [hy, decide_false, Bool.false_eq_true, not_false_eq_true, find?_cons_of_neg] at h
      rw [eraseP_cons_of_neg (by simpa using hy)]
      exact ((ih h).cons y).trans (.swap x y _)

lemma mem_eraseP_iff {k : κ} {x : α} (hn : (l.map key).Nodup) :
    x ∈ l.eraseP (key · = k) ↔ x ∈ l ∧ key x ≠ k := by
  induction l with
  | nil => simp
  | cons y l ih =>
    rw [map_cons, nodup_cons] at hn
    by_cases hy : key y = k
    · rw [eraseP_cons_of_pos (by simpa using hy), mem_cons]
      constructor
      · intro hx
        refine ⟨.inr hx, fun hk => hn.1 ?_⟩
        rw [hy, ← hk]
        exact mem_map_of_mem hx
      · rintro ⟨rfl | hx, hk⟩
        · exact absurd hy hk
        · exact hx
    · rw [eraseP_cons_of_neg (by simpa using hy), mem_cons, mem_cons, ih hn.2]
      constructor
      · rintro (rfl | ⟨hx, hk⟩)
        · exact ⟨.inl rfl, hy⟩
        · exact ⟨.inr hx, hk⟩
      · rintro ⟨rfl | hx, hk⟩
        · exact .inl rfl
        · exact .inr ⟨hx, hk⟩

lemma getElem?_concat {a x : α} {k : ℕ} :
    (l ++ [a])[k]? = some x ↔ l[k]? = some x ∨ k = l.length ∧ a = x := by
  rcases Nat.lt_trichotomy k l.length with hlt | rfl | hgt
  · simp [getElem?_append_left hlt, Nat.ne_of_lt hlt]
  · simp
  · rw [getElem?_eq_none (Nat.le_of_lt hgt), getElem?_eq_none (by simp; omega)]
    simp [Nat.ne_of_gt hgt]

end Keyed

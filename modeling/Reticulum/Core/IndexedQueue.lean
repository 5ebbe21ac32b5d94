import Mathlib.Data.List.Nodup

/-!
# A queue with an index

A queue of entries with keys is searched by an **index**: a map from the keys to the positions of
their entries.  When an entry is taken from the front, the index is written anew for those that move
up.  `Indexed key queue index` says that the two describe the same entries, and both operations keep
it (`Indexed.append`, `Indexed.pop`).
-/

namespace IndexedQueue

open List

universe u v

variable {α : Type u} {κ : Type v} {key : α → κ} {queue : List α} {index : κ → Option ℕ}

def Indexed (key : α → κ) (queue : List α) (index : κ → Option ℕ) : Prop :=
  ∀ k i, index k = some i ↔ queue[i]?.map key = some k

lemma Indexed.nil (key : α → κ) : Indexed key [] (fun _ => none) := by
  intro k i
  simp

lemma Indexed.nodup (h : Indexed key queue index) : (queue.map key).Nodup := by
  rw [nodup_iff_getElem?_ne_getElem?]
  intro i j hij hj heq
  rw [length_map] at hj
  rw [getElem?_map, getElem?_map, getElem?_eq_getElem hj, Option.map_some] at heq
  have hi := (h _ i).2 heq
  have hj := (h _ j).2 (by rw [getElem?_eq_getElem hj, Option.map_some])
  exact Nat.ne_of_lt hij (Option.some.inj (hi.symm.trans hj))

lemma Indexed.mem_iff (h : Indexed key queue index) (k : κ) :
    (index k).isSome ↔ k ∈ queue.map key := by
  rw [Option.isSome_iff_exists, mem_iff_getElem?]
  simp [h k]

variable [DecidableEq κ]

lemma Indexed.append (h : Indexed key queue index) {x : α} (hx : index (key x) = none) :
    Indexed key (queue ++ [x]) (Function.update index (key x) (some queue.length)) := by
  have hnot : key x ∉ queue.map key := by
    rw [← h.mem_iff, hx]
    simp
  intro k i
  by_cases hk : k = key x
  · subst hk
    rw [Function.update_self, Option.some.injEq]
    constructor
    · rintro rfl
      simp
    · intro hi
      by_contra hne
      rcases Nat.lt_or_gt_of_ne hne with hlt | hlt
      · rw [getElem?_eq_none (by rw [length_append]; exact hlt)] at hi
        simp at hi
      · rw [getElem?_append_left hlt] at hi
        exact hnot (mem_iff_getElem?.2 ⟨i, by rw [getElem?_map]; exact hi⟩)
  · rw [Function.update_of_ne hk, h k i]
    by_cases hi : i < queue.length
    · rw [getElem?_append_left hi]
    · have hnone : queue[i]? = none := getElem?_eq_none (Nat.not_lt.1 hi)
      rw [hnone, getElem?_append_right (Nat.not_lt.1 hi)]
      rcases hi' : i - queue.length with _ | n
      · simp [Ne.symm hk]
      · simp

def reindex (key : α → κ) : List α → ℕ → (κ → Option ℕ) → κ → Option ℕ
  | [], _, index => index
  | x :: xs, n, index => reindex key xs (n + 1) (Function.update index (key x) (some n))

lemma reindex_of_notMem (xs : List α) (n : ℕ) (index : κ → Option ℕ) {k : κ}
    (hk : k ∉ xs.map key) : reindex key xs n index k = index k := by
  induction xs generalizing n index with
  | nil => rfl
  | cons x xs ih =>
    rw [map_cons, mem_cons, not_or] at hk
    rw [reindex, ih _ _ hk.2, Function.update_of_ne hk.1]

lemma reindex_of_getElem? (xs : List α) (n : ℕ) (index : κ → Option ℕ) {k : κ} {i : ℕ}
    (hnodup : (xs.map key).Nodup) (hi : xs[i]?.map key = some k) :
    reindex key xs n index k = some (n + i) := by
  induction xs generalizing n index i with
  | nil => simp at hi
  | cons x xs ih =>
    rw [map_cons, nodup_cons] at hnodup
    rw [reindex]
    cases i with
    | zero =>
      obtain rfl : key x = k := by simpa using hi
      rw [reindex_of_notMem xs _ _ hnodup.1, Function.update_self, Nat.add_zero]
    | succ i =>
      rw [ih _ _ hnodup.2 (by simpa using hi)]
      congr 1
      omega

lemma Indexed.pop {x : α} {xs : List α} (h : Indexed key (x :: xs) index) :
    Indexed key xs (reindex key xs 0 (Function.update index (key x) none)) := by
  have hnodup : key x ∉ xs.map key ∧ (xs.map key).Nodup := by
    have := h.nodup
    rwa [map_cons, nodup_cons] at this
  intro k i
  constructor
  · intro hk
    by_cases hmem : k ∈ xs.map key
    · obtain ⟨j, hj⟩ := mem_iff_getElem?.1 hmem
      rw [getElem?_map] at hj
      rw [reindex_of_getElem? xs 0 _ hnodup.2 hj, Nat.zero_add, Option.some.injEq] at hk
      subst hk
      exact hj
    · -- a key of no entry that is left was that of the first, or had no position before
      exfalso
      rw [reindex_of_notMem xs 0 _ hmem] at hk
      by_cases hx : k = key x
      · simp [hx] at hk
      · rw [Function.update_of_ne hx] at hk
        have hmem' : k ∈ (x :: xs).map key := by
          rw [← h.mem_iff, hk]
          rfl
        rw [map_cons, mem_cons] at hmem'
        exact hmem'.elim hx hmem
  · intro hi
    rw [reindex_of_getElem? xs 0 _ hnodup.2 hi, Nat.zero_add]

end IndexedQueue

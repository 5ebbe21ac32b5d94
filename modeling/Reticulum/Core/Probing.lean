import Mathlib.Data.List.Perm.Basic

/-!
# Linear probing

A hash table with open addressing is a row of `m` **cells**, `cell : ℕ → Option κ`.  The search for
a key starts at its **home**, goes from cell to cell around the row, and **stops** at the first cell
that is free or holds the key.
-/

namespace Probing

variable {j : ℕ}

universe u

/-! ## Searching around a row of cells -/

/-- The first place from `i` on, around a row of `m` places, where `stop` holds, if it is among the
next `fuel` ones. -/
def find (stop : ℕ → Prop) [DecidablePred stop] (m : ℕ) : ℕ → ℕ → Option ℕ
  | 0, _ => none
  | fuel + 1, i => if stop i then some i else find stop m fuel ((i + 1) % m)

section Find

variable {stop : ℕ → Prop} [DecidablePred stop] {m : ℕ} {fuel : ℕ} {i : ℕ}

/-- **Where a search stops.** -/
lemma find_eq_some_iff (hi : i < m) :
    find stop m fuel i = some j ↔
      ∃ d < fuel, j = (i + d) % m ∧ stop j ∧ ∀ e < d, ¬ stop ((i + e) % m) := by
  induction fuel generalizing i with
  | zero => simp [find]
  | succ fuel ih =>
    have hnext : (i + 1) % m < m := Nat.mod_lt _ (by omega)
    have hshift : ∀ d, ((i + 1) % m + d) % m = (i + (d + 1)) % m := by
      intro d
      rw [Nat.mod_add_mod]
      congr 1
      omega
    by_cases hs : stop i
    · simp only [find, hs, if_true, Option.some.injEq]
      constructor
      · rintro rfl
        exact ⟨0, by omega, (Nat.mod_eq_of_lt hi).symm, hs, by simp⟩
      · rintro ⟨d, -, rfl, -, hbefore⟩
        rcases Nat.eq_zero_or_pos d with rfl | hd
        · exact (Nat.mod_eq_of_lt hi).symm
        · exact absurd (by simpa [Nat.mod_eq_of_lt hi] using hs) (hbefore 0 hd)
    · simp only [find, hs, if_false, ih hnext, hshift]
      constructor
      · rintro ⟨d, hd, hj, hstop, hbefore⟩
        refine ⟨d + 1, by omega, hj, hstop, ?_⟩
        intro e he
        cases e with
        | zero => simpa [Nat.mod_eq_of_lt hi] using hs
        | succ e => exact hbefore e (by omega)
      · rintro ⟨d, hd, hj, hstop, hbefore⟩
        cases d with
        | zero =>
          rw [hj] at hstop
          exact absurd (by simpa [Nat.mod_eq_of_lt hi] using hstop) hs
        | succ d =>
          exact ⟨d, by omega, hj, hstop, fun e he => hbefore (e + 1) (by omega)⟩

lemma exists_find_of_lt {d : ℕ} (hd : d < fuel) (hi : i < m) (hstop : stop ((i + d) % m)) :
    ∃ j, find stop m fuel i = some j := by
  induction fuel generalizing i d with
  | zero => omega
  | succ fuel ih =>
    by_cases hs : stop i
    · exact ⟨i, by simp [find, hs]⟩
    · simp only [find, hs]
      cases d with
      | zero => exact absurd (by simpa [Nat.mod_eq_of_lt hi] using hstop) hs
      | succ d =>
        refine ih (d := d) (by omega) (Nat.mod_lt _ (by omega)) ?_
        rw [Nat.mod_add_mod]
        rwa [show i + 1 + d = i + (d + 1) by omega]

/-- **A search around the whole row stops** if there is a place where it has to. -/
lemma exists_find {f : ℕ} (hi : i < m) (hf : f < m) (hstop : stop f) :
    ∃ j, find stop m m i = some j := by
  -- the place is `f - i` ahead, or `m` more where it lies behind
  have hahead : (i + (f + m - i) % m) % m = f := by
    rw [Nat.add_mod_mod, show i + (f + m - i) = f + m by omega, Nat.add_mod_right,
      Nat.mod_eq_of_lt hf]
  exact exists_find_of_lt (Nat.mod_lt _ (by omega)) hi (by rwa [hahead])

lemma find_lt (hi : i < m) (h : find stop m fuel i = some j) : j < m := by
  obtain ⟨d, -, rfl, -, -⟩ := (find_eq_some_iff hi).1 h
  exact Nat.mod_lt _ (by omega)

lemma find_stop (hi : i < m) (h : find stop m fuel i = some j) : stop j := by
  obtain ⟨d, -, -, hstop, -⟩ := (find_eq_some_iff hi).1 h
  exact hstop

lemma find_congr {stop' : ℕ → Prop} [DecidablePred stop'] (hi : i < m)
    (h : find stop m fuel i = some j) (hj : stop' j) (hway : ∀ x < m, ¬ stop x → ¬ stop' x) :
    find stop' m fuel i = some j := by
  rw [find_eq_some_iff hi] at h ⊢
  obtain ⟨d, hd, hj', -, hbefore⟩ := h
  exact ⟨d, hd, hj', hj, fun e he => hway _ (Nat.mod_lt _ (by omega)) (hbefore e he)⟩

end Find

/-! ## Tables -/

variable {κ : Type u} {cell : ℕ → Option κ} {m : ℕ}

def Stops (cell : ℕ → Option κ) (k : κ) (i : ℕ) : Prop := cell i = none ∨ cell i = some k

instance [DecidableEq κ] (cell : ℕ → Option κ) (k : κ) : DecidablePred (Stops cell k) :=
  fun i => inferInstanceAs (Decidable (cell i = none ∨ cell i = some k))

def elems (m : ℕ) (cell : ℕ → Option κ) : List κ := (List.range m).filterMap cell

lemma mem_elems {k : κ} : k ∈ elems m cell ↔ ∃ j < m, cell j = some k := by
  simp [elems]

lemma elems_succ (m : ℕ) (cell : ℕ → Option κ) :
    elems (m + 1) cell = elems m cell ++ (cell m).toList := by
  rw [elems, elems, List.range_succ, List.filterMap_append]
  cases h : cell m <;> simp [h]

lemma exists_free (h : (elems m cell).length < m) : ∃ f < m, cell f = none := by
  induction m with
  | zero => omega
  | succ m ih =>
    rw [elems_succ, List.length_append] at h
    cases hm : cell m with
    | none => exact ⟨m, by omega, hm⟩
    | some k =>
      rw [hm] at h
      obtain ⟨f, hf, hfree⟩ := ih (by simpa using h)
      exact ⟨f, by omega, hfree⟩

lemma elems_update_perm (k : κ) (hj : j < m) (hfree : cell j = none) :
    (elems m (Function.update cell j (some k))).Perm (k :: elems m cell) := by
  induction m with
  | zero => omega
  | succ m ih =>
    rw [elems_succ, elems_succ]
    rcases Nat.lt_or_ge j m with hlt | hge
    · rw [Function.update_of_ne (by omega)]
      exact (ih hlt).append_right _
    · obtain rfl : j = m := by omega
      have hsame : elems j (Function.update cell j (some k)) = elems j cell := by
        refine List.filterMap_congr ?_
        intro x hx
        have hx : x < j := List.mem_range.1 hx
        exact Function.update_of_ne (by omega) _ _
      rw [Function.update_self, hfree, hsame]
      exact (List.perm_append_singleton k (elems j cell)).trans (by simp)

/-! ## Linked tables -/

variable [DecidableEq κ]

def place (home : κ → ℕ) (m : ℕ) (cell : ℕ → Option κ) (k : κ) : Option ℕ :=
  find (Stops cell k) m m (home k)

/-- A table in which the search for a stored key stops at its place. -/
structure Linked (home : κ → ℕ) (m : ℕ) (cell : ℕ → Option κ) : Prop where
  home_lt : ∀ k, home k < m
  place_eq : ∀ j < m, ∀ k, cell j = some k → place home m cell k = some j

lemma linked_empty {home : κ → ℕ} (hhome : ∀ k, home k < m) : Linked home m fun _ => none where
  home_lt := hhome
  place_eq := by simp

namespace Linked

variable {home : κ → ℕ} {m : ℕ} {cell : ℕ → Option κ} {k : κ} {j : ℕ}

/-- **A search stops at its key exactly if the key is stored.** -/
lemma found_iff (h : Linked home m cell) (hplace : place home m cell k = some j) :
    cell j = some k ↔ k ∈ elems m cell := by
  rw [mem_elems]
  constructor
  · intro hj
    exact ⟨j, find_lt (h.home_lt k) hplace, hj⟩
  · rintro ⟨i, hi, hk⟩
    have hi' := h.place_eq i hi k hk
    rw [hplace, Option.some.injEq] at hi'
    rwa [hi']

lemma exists_place (h : Linked home m cell) (hlen : (elems m cell).length < m) (k : κ) :
    ∃ j < m, place home m cell k = some j := by
  obtain ⟨f, hf, hfree⟩ := exists_free hlen
  have hstop : Stops cell k f := .inl hfree
  obtain ⟨j, hj⟩ := exists_find (h.home_lt k) hf hstop
  exact ⟨j, find_lt (h.home_lt k) hj, hj⟩

/-- **Filling the free cell where the search for a key has stopped keeps the table linked.** -/
lemma insert (h : Linked home m cell) (hplace : place home m cell k = some j)
    (hfree : cell j = none) : Linked home m (Function.update cell j (some k)) where
  home_lt := h.home_lt
  place_eq := by
    -- no search that goes on at a cell has met the free one
    have hway : ∀ k' x, ¬ Stops cell k' x → ¬ Stops (Function.update cell j (some k)) k' x := by
      intro k' x hx
      have hxj : x ≠ j := by
        rintro rfl
        exact hx (.inl hfree)
      rwa [Stops, Function.update_of_ne hxj]
    intro i hi k' hk'
    by_cases hij : i = j
    · subst hij
      rw [Function.update_self, Option.some.injEq] at hk'
      subst hk'
      exact find_congr (h.home_lt _) hplace (.inr (Function.update_self ..))
        fun x _ => hway _ x
    · rw [Function.update_of_ne hij] at hk'
      refine find_congr (h.home_lt _) (h.place_eq i hi k' hk') (.inr ?_) fun x _ => hway _ x
      rw [Function.update_of_ne hij, hk']

end Linked

end Probing

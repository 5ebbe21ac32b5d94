import Reticulum.Core.Bytes
import Reticulum.Core.Probing

/-!
# One generation of packet hashes

A generation is a hash table with linear probing (`pkg/transport/packet_hashlist.go`).  The number
of slots is zero or a power of two, doubled each time that the row is about to be more than half
full, and `& mask` is the remainder.  The loops of the source have no bound.  Here they may look at
every slot once, and for a table of the invariant `Table` that is enough (**`has_eq`**,
**`put_ok`**).
-/

namespace Reticulum

open Probing Option List

def littleEndian (b : Bytes) : ℕ := b.foldr (fun x n => n * 256 + x.toNat) 0

def hashSlot (k : Bytes) (mask : ℕ) : ℕ :=
  (littleEndian (k.take 8) ^^^ littleEndian ((k.drop 8).take 8) ^^^
    littleEndian ((k.drop 16).take 8) ^^^ littleEndian ((k.drop 24).take 8)) &&& mask

def zeroHash : Bytes := replicate 32 0

structure HashGen where
  slots : List Bytes
  occ : List Bool
  n : ℕ
  mask : ℕ
deriving DecidableEq

namespace HashGen

def empty : HashGen := ⟨[], [], 0, 0⟩

section

variable (g : HashGen)

def cell (i : ℕ) : Option Bytes :=
  if g.occ.getD i false then some (g.slots.getD i zeroHash) else none

def hasLoop (g : HashGen) (k : Bytes) : ℕ → ℕ → Option Bool
  | 0, _ => none
  | fuel + 1, i =>
    if !g.occ.getD i false then some false
    else if g.slots.getD i zeroHash = k then some true
    else hasLoop g k fuel ((i + 1) &&& g.mask)

def has (k : Bytes) : Option Bool :=
  if g.slots.length = 0 then some false
  else g.hasLoop k g.slots.length (hashSlot k g.mask)

def store (i : ℕ) (k : Bytes) : HashGen :=
  { g with slots := g.slots.set i k, occ := g.occ.set i true, n := g.n + 1 }

def insertLoop (g : HashGen) (k : Bytes) : ℕ → ℕ → Option HashGen
  | 0, _ => none
  | fuel + 1, i =>
    if !g.occ.getD i false then some (g.store i k)
    else if g.slots.getD i zeroHash = k then some g
    else insertLoop g k fuel ((i + 1) &&& g.mask)

def insert (k : Bytes) : Option HashGen :=
  g.insertLoop k g.slots.length (hashSlot k g.mask)

def sized (ns : ℕ) : HashGen where
  slots := replicate ns zeroHash
  occ := replicate ns false
  n := 0
  mask := ns - 1

def reinsert (ng : HashGen) (i : ℕ) : Option HashGen :=
  if g.occ.getD i false then ng.insert (g.slots.getD i zeroHash) else some ng

def grow : Option HashGen :=
  let ns := if 0 < g.slots.length then g.slots.length * 2 else 8
  (range g.occ.length).foldlM (reinsert g) (sized ns)

def put (k : Bytes) : Option HashGen :=
  let grown := if g.slots.length = 0 ∨ g.slots.length < (g.n + 1) * 2 then g.grow else some g
  grown.bind fun g => g.insert k

/-! ## The loops are searches -/

def elems : List Bytes := Probing.elems g.slots.length g.cell

end

structure Row (g : HashGen) : Prop where
  size : ∃ p, 3 ≤ p ∧ g.slots.length = 2 ^ p
  length_occ : g.occ.length = g.slots.length
  mask_eq : g.mask = g.slots.length - 1

/-- A table: the search for each hash stops where it is stored, and `n` counts the hashes. -/
structure Table (g : HashGen) : Prop extends Row g where
  linked : Linked (hashSlot · g.mask) g.slots.length g.cell
  n_eq : g.elems.length = g.n

section Row

variable {g : HashGen} {k : Bytes}

lemma Row.eight_le (h : g.Row) : 8 ≤ g.slots.length := by
  obtain ⟨p, hp, hlen⟩ := h.size
  rw [hlen]
  calc 8 = 2 ^ 3 := rfl
    _ ≤ 2 ^ p := Nat.pow_le_pow_right (by omega) hp

lemma Row.and_mask (h : g.Row) (i : ℕ) : i &&& g.mask = i % g.slots.length := by
  obtain ⟨p, -, hlen⟩ := h.size
  rw [h.mask_eq, hlen, Nat.and_two_pow_sub_one_eq_mod]

lemma Row.hashSlot_lt (h : g.Row) (k : Bytes) : hashSlot k g.mask < g.slots.length := by
  have := h.eight_le
  rw [hashSlot, h.and_mask]
  exact Nat.mod_lt _ (by omega)

lemma slot_cases (g : HashGen) (k : Bytes) (i : ℕ) :
    (g.occ.getD i false = false ∧ g.cell i = none) ∨
      (g.occ.getD i false ∧ g.slots.getD i zeroHash = k ∧ g.cell i = some k) ∨
      (g.occ.getD i false ∧ g.slots.getD i zeroHash ≠ k ∧ ¬ Stops g.cell k i) := by
  unfold Stops cell
  by_cases hocc : g.occ.getD i false
  · by_cases hk : g.slots.getD i zeroHash = k
    · exact .inr (.inl ⟨hocc, hk, by rw [if_pos hocc, hk]⟩)
    · refine .inr (.inr ⟨hocc, hk, ?_⟩)
      rw [if_pos hocc]
      simpa using hk
  · exact .inl ⟨by simpa using hocc, if_neg hocc⟩

lemma hasLoop_eq (h : g.Row) (fuel i : ℕ) :
    g.hasLoop k fuel i = (find (Stops g.cell k) g.slots.length fuel i).map
      fun j => decide (g.cell j = some k) := by
  induction fuel generalizing i with
  | zero => rfl
  | succ fuel ih =>
    rcases slot_cases g k i with ⟨hocc, hcell⟩ | ⟨hocc, hk, hcell⟩ | ⟨hocc, hk, hgo⟩
    · simp only [hasLoop, find, hocc, Stops, hcell, Bool.not_false, if_true, true_or,
        map_some, reduceCtorEq, decide_false]
    · simp only [hasLoop, find, hocc, hk, Stops, hcell, Bool.not_true, Bool.false_eq_true,
        if_false, if_true, or_true, map_some, decide_true]
    · simp only [hasLoop, find, hocc, hk, hgo, Bool.not_true, Bool.false_eq_true, if_false,
        h.and_mask, ih]

lemma insertLoop_eq (h : g.Row) (fuel i : ℕ) :
    g.insertLoop k fuel i = (find (Stops g.cell k) g.slots.length fuel i).map
      fun j => if g.cell j = none then g.store j k else g := by
  induction fuel generalizing i with
  | zero => rfl
  | succ fuel ih =>
    rcases slot_cases g k i with ⟨hocc, hcell⟩ | ⟨hocc, hk, hcell⟩ | ⟨hocc, hk, hgo⟩
    · simp only [insertLoop, find, hocc, Stops, hcell, Bool.not_false, if_true, true_or, map_some]
    · simp only [insertLoop, find, hocc, hk, Stops, hcell, Bool.not_true, if_false, if_true,
        or_true, map_some, reduceCtorEq]
    · simp only [insertLoop, find, hocc, hk, hgo, Bool.not_true, Bool.false_eq_true, if_false,
        h.and_mask, ih]

lemma cell_store (h : g.Row) {j : ℕ} (hj : j < g.slots.length) :
    (g.store j k).cell = Function.update g.cell j (some k) := by
  have hj' : j < g.occ.length := by rw [h.length_occ]; exact hj
  funext i
  by_cases hij : i = j
  · subst hij
    simp [cell, store, hj, hj']
  · rw [Function.update_of_ne hij]
    simp [cell, store, Ne.symm hij]

end Row

/-! ## Storing a hash -/

section Table

variable {g : HashGen} {k : Bytes}

lemma Table.exists_place (h : g.Table) (hn : g.n < g.slots.length) (k : Bytes) :
    ∃ j < g.slots.length, find (Stops g.cell k) g.slots.length g.slots.length
      (hashSlot k g.mask) = some j :=
  h.linked.exists_place (by rw [← h.n_eq] at hn; exact hn) k

/-- **The loop of `has` ends, and says whether the hash is stored.** -/
lemma Table.has_eq (h : g.Table) (hn : g.n < g.slots.length) (k : Bytes) :
    g.has k = some (decide (k ∈ g.elems)) := by
  obtain ⟨j, hj, hplace⟩ := h.exists_place hn k
  rw [has, if_neg (by omega), hasLoop_eq h.toRow, hplace, map_some, some.injEq]
  exact decide_eq_decide.2 (h.linked.found_iff hplace)

/-- **The loop of `insert` ends, and the hash is stored besides the others.** -/
lemma Table.insert_ok (h : g.Table) (hn : g.n < g.slots.length) (k : Bytes) :
    ∃ g', g.insert k = some g' ∧ g'.Table ∧ g'.slots.length = g.slots.length ∧
      g'.elems.Perm (g.elems.insert k) := by
  obtain ⟨j, hj, hplace⟩ := h.exists_place hn k
  rw [insert, insertLoop_eq h.toRow, hplace, map_some]
  have hfound := h.linked.found_iff hplace
  by_cases hfree : g.cell j = none
  · rw [if_pos hfree]
    -- the search has not found the hash, so this is a new one
    have hnew : k ∉ g.elems := by
      intro hk
      rw [hfound.2 hk] at hfree
      cases hfree
    have hlen : (g.store j k).slots.length = g.slots.length := length_set
    have hcell := cell_store (k := k) h.toRow hj
    have hperm : (g.store j k).elems.Perm (k :: g.elems) := by
      rw [elems, hlen, hcell]
      exact elems_update_perm k hj hfree
    refine ⟨g.store j k, rfl, ?_, hlen, ?_⟩
    · refine { size := by rw [hlen]; exact h.size, length_occ := ?_, mask_eq := ?_, linked := ?_,
               n_eq := ?_ }
      · rw [hlen, ← h.length_occ]
        exact length_set
      · rw [hlen]
        exact h.mask_eq
      · rw [hlen, hcell]
        exact h.linked.insert hplace hfree
      · rw [hperm.length_eq, length_cons, h.n_eq]
        rfl
    · rw [insert_of_not_mem hnew]
      exact hperm
  · rw [if_neg hfree]
    have hk : k ∈ g.elems := by
      rcases find_stop (h.linked.home_lt k) hplace with hnone | hsome
      · exact absurd hnone hfree
      · exact hfound.1 hsome
    exact ⟨g, rfl, h, rfl, by rw [insert_of_mem hk]⟩

end Table

/-! ## Growing -/

lemma table_sized {p : ℕ} (hp : 3 ≤ p) : (sized (2 ^ p)).Table ∧ (sized (2 ^ p)).elems = [] := by
  have hlen : (sized (2 ^ p)).slots.length = 2 ^ p := length_replicate
  have hrow : (sized (2 ^ p)).Row :=
    ⟨⟨p, hp, hlen⟩, by simp [sized], by rw [hlen]; rfl⟩
  have hcell : (sized (2 ^ p)).cell = fun _ => none := by
    funext i
    refine if_neg ?_
    simp only [sized, getD_eq_getElem?_getD, getElem?_replicate]
    split <;> simp
  have helems : (sized (2 ^ p)).elems = [] := by
    rw [elems, hcell]
    simp [Probing.elems]
  refine ⟨{ hrow with linked := ?_, n_eq := ?_ }, helems⟩
  · rw [hcell]
    exact linked_empty hrow.hashSlot_lt
  · rw [helems]
    rfl

/-- **Putting the hashes of a table into a larger one.**  After the first `c` slots the larger table
stores what they held. -/
lemma reinsert_ok {g ng : HashGen} (h : g.Table) (hng : ng.Table) (hnil : ng.elems = [])
    (hlen : g.slots.length < ng.slots.length) {c : ℕ} (hc : c ≤ g.slots.length) :
    ∃ ng', (range c).foldlM (reinsert g) ng = some ng' ∧ ng'.Table ∧
      ng'.slots.length = ng.slots.length ∧ ng'.elems.Perm (Probing.elems c g.cell) := by
  induction c with
  | zero => exact ⟨ng, rfl, hng, rfl, by rw [hnil]; simp [Probing.elems]⟩
  | succ c ih =>
    obtain ⟨ng', hfold, htable, hlen', hperm⟩ := ih (by omega)
    have hstep : (range (c + 1)).foldlM (reinsert g) ng = reinsert g ng' c := by
      rw [range_succ, foldlM_append, hfold]
      simp
    rw [hstep, elems_succ]
    by_cases hocc : g.occ.getD c false
    · have hcell : g.cell c = some (g.slots.getD c zeroHash) := if_pos hocc
      -- the slots before hold other hashes
      have hnew : g.slots.getD c zeroHash ∉ Probing.elems c g.cell := by
        rw [mem_elems]
        rintro ⟨j, hj, hk⟩
        have hplace := h.linked.place_eq j (by omega) _ hk
        rw [h.linked.place_eq c (by omega) _ hcell, some.injEq] at hplace
        omega
      have hroom : ng'.n < ng'.slots.length := by
        have hle : (Probing.elems c g.cell).length ≤ c := by
          simpa [Probing.elems] using length_filterMap_le g.cell (range c)
        rw [← htable.n_eq, hperm.length_eq]
        omega
      obtain ⟨ng'', hinsert, htable'', hlen'', hperm''⟩ := htable.insert_ok hroom _
      refine ⟨ng'', ?_, htable'', hlen''.trans hlen', ?_⟩
      · rw [reinsert, if_pos hocc, hinsert]
      · rw [hcell, toList_some]
        refine hperm''.trans ((hperm.insert _).trans ?_)
        rw [insert_of_not_mem hnew]
        exact (perm_append_singleton _ _).symm
    · have hcell : g.cell c = none := if_neg hocc
      refine ⟨ng', by rw [reinsert, if_neg hocc], htable, hlen', ?_⟩
      rw [hcell, toList_none, append_nil]
      exact hperm

/-! ## Generations in use -/

/-- A generation as it is in use: without slots, or a table that is at most half full. -/
def InUse (g : HashGen) : Prop := g = empty ∨ (g.Table ∧ 2 * g.n ≤ g.slots.length)

lemma inUse_empty : empty.InUse := .inl rfl

lemma elems_empty : empty.elems = [] := rfl

section InUse

variable {g : HashGen}

/-- **There is always a free slot**, if there are slots. -/
lemma InUse.exists_free (h : g.InUse) :
    g.slots = [] ∨ ∃ i < g.slots.length, g.occ.getD i false = false := by
  rcases h with rfl | ⟨htable, hhalf⟩
  · exact .inl rfl
  · right
    have height := htable.eight_le
    have hlen : (Probing.elems g.slots.length g.cell).length = g.n := htable.n_eq
    have hroom : (Probing.elems g.slots.length g.cell).length < g.slots.length := by omega
    obtain ⟨i, hi, hfree⟩ := Probing.exists_free hroom
    refine ⟨i, hi, ?_⟩
    by_contra hocc
    rw [cell, if_pos (by simpa using hocc)] at hfree
    cases hfree

lemma InUse.n_eq (h : g.InUse) : g.elems.length = g.n := by
  rcases h with rfl | ⟨htable, -⟩
  · rfl
  · exact htable.n_eq

/-- **`has` ends, and says whether the hash is stored.** -/
theorem has_eq (h : g.InUse) (k : Bytes) : g.has k = some (decide (k ∈ g.elems)) := by
  rcases h with rfl | ⟨htable, hhalf⟩
  · rfl
  · have height := htable.eight_le
    exact htable.has_eq (by omega) k

lemma InUse.grow_ok (h : g.InUse) :
    ∃ g', g.grow = some g' ∧ g'.Table ∧ 2 * (g'.n + 1) ≤ g'.slots.length ∧
      g'.elems.Perm g.elems := by
  rcases h with rfl | ⟨htable, hhalf⟩
  · obtain ⟨htable, hnil⟩ := table_sized (p := 3) (by omega)
    exact ⟨sized (2 ^ 3), rfl, htable, by decide, by rw [hnil, elems_empty]⟩
  · have height := htable.eight_le
    obtain ⟨p, hp, hlen⟩ := htable.size
    have hdouble : g.slots.length * 2 = 2 ^ (p + 1) := by rw [hlen, pow_succ]
    obtain ⟨hsized, hnil⟩ := table_sized (p := p + 1) (by omega)
    have hlen' : (sized (2 ^ (p + 1))).slots.length = g.slots.length * 2 := by
      rw [hdouble]
      exact length_replicate
    obtain ⟨g', hfold, htable', hlen'', hperm⟩ :=
      reinsert_ok htable hsized hnil (by omega) le_rfl
    refine ⟨g', ?_, htable', ?_, hperm⟩
    · rw [grow, if_pos (by omega), htable.length_occ, hdouble]
      exact hfold
    · have hn : g'.n = g.n := by
        rw [← htable'.n_eq, ← htable.n_eq]
        exact hperm.length_eq
      omega

/-- **`put` ends, and the hash is stored besides what was there.** -/
theorem put_ok (h : g.InUse) (k : Bytes) :
    ∃ g', g.put k = some g' ∧ g'.InUse ∧ g'.elems.Perm (g.elems.insert k) := by
  -- a table with room for one more, be it the old or a larger one
  have hroom : ∃ g₁, (if g.slots.length = 0 ∨ g.slots.length < (g.n + 1) * 2 then g.grow
      else some g) = some g₁ ∧ g₁.Table ∧ 2 * (g₁.n + 1) ≤ g₁.slots.length ∧
        g₁.elems.Perm g.elems := by
    by_cases hfull : g.slots.length = 0 ∨ g.slots.length < (g.n + 1) * 2
    · rw [if_pos hfull]
      exact h.grow_ok
    · rw [if_neg hfull]
      push Not at hfull
      rcases h with rfl | ⟨htable, -⟩
      · exact absurd rfl hfull.1
      · exact ⟨g, rfl, htable, by omega, Perm.refl _⟩
  obtain ⟨g₁, hgrow, htable, hlen, hperm⟩ := hroom
  obtain ⟨g₂, hinsert, htable₂, hlen₂, hperm₂⟩ := htable.insert_ok (by omega) k
  have hperm' : g₂.elems.Perm (g.elems.insert k) := hperm₂.trans (hperm.insert k)
  refine ⟨g₂, ?_, .inr ⟨htable₂, ?_⟩, hperm'⟩
  · rw [put, hgrow, bind_some, hinsert]
  · -- the insertion adds at most one
    have hn : g₂.n ≤ g₁.n + 1 := by
      rw [← htable₂.n_eq, ← htable.n_eq, hperm₂.length_eq, length_insert]
      split <;> omega
    omega

end InUse

end HashGen

end Reticulum

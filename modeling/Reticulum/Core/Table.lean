import Mathlib.Algebra.GroupWithZero.Nat
import Mathlib.Data.List.AList
import Mathlib.Data.List.Induction
import Mathlib.Data.List.Sort

/-!
# Tables of bounded size

A table is a finite map that holds at most `capacity` entries.  When it is full, a new entry takes
the place of the **oldest** one that may be given up, and is itself given up if there is none
(`put`).  The loop that looks for the oldest entry visits the map in an order of its own, which is a
parameter: `rank` numbers the keys, and any order of a finite map is the order of some `rank`.
-/

universe u v w

/-- A finite map. -/
abbrev Map (κ : Type u) (β : Type v) : Type (max u v) := AList fun _ : κ => β

namespace Table

open AList List

variable {κ : Type u} {β : Type v} {γ : Type w} [DecidableEq κ]

/-! ## Entries that are changed or sorted out -/

def modify (f : β → β) (t : Map κ β) (k : κ) : Map κ β :=
  match t.lookup k with
  | none => t
  | some v => t.insert k (f v)

def keep (p : κ → β → Bool) (t : Map κ β) : Map κ β :=
  ⟨t.entries.filter fun s => p s.1 s.2, t.nodupKeys.sublist filter_sublist⟩

section

variable {t : Map κ β} {k j : κ} {v : β}

lemma lookup_eq_some_iff : t.lookup k = some v ↔ ⟨k, v⟩ ∈ t.entries :=
  mem_lookup_iff

lemma lookup_modify (f : β → β) (t : Map κ β) (k j : κ) :
    (modify f t k).lookup j = if j = k then (t.lookup k).map f else t.lookup j := by
  unfold modify
  split
  · rename_i hnone
    split
    · rename_i heq
      rw [heq, hnone]
      rfl
    · rfl
  · rename_i v hsome
    split
    · rename_i heq
      rw [heq, lookup_insert, hsome]
      rfl
    · rename_i hne
      exact lookup_insert_ne hne

lemma lookup_keep (p : κ → β → Bool) (t : Map κ β) (k : κ) :
    (keep p t).lookup k = (t.lookup k).filter (p k) := by
  ext v
  rw [lookup_eq_some_iff, Option.filter_eq_some_iff, lookup_eq_some_iff]
  simp [keep]

def Swept (p : β → Bool) (t t' : Map κ β) : Prop :=
  ∀ k v, t'.lookup k = some v ↔ t.lookup k = some v ∧ p v = false

lemma swept_keep (p : β → Bool) (t : Map κ β) : Swept p t (keep (fun _ v => !p v) t) := by
  intro k v
  rw [lookup_keep, Option.filter_eq_some_iff, Bool.not_eq_true']

lemma length_insert_le (t : Map κ β) (k : κ) (v : β) :
    (t.insert k v).entries.length ≤ t.entries.length + 1 := by
  exact Nat.succ_le_succ (kerase_sublist k t.entries).length_le

lemma erase_of_not_mem (h : k ∉ t) : t.erase k = t :=
  ext (kerase_of_notMem_keys h)

lemma lookup_erase (t : Map κ β) (k j : κ) :
    (t.erase k).lookup j = if j = k then none else t.lookup j := by
  split_ifs with h
  · rw [h]
    exact AList.lookup_erase k t
  · exact lookup_erase_ne h

lemma erase_insert (t : Map κ β) (k : κ) (v : β) : (t.insert k v).erase k = t.erase k := by
  apply ext
  show kerase k (t.insert k v).entries = kerase k t.entries
  exact kerase_cons_eq rfl

lemma length_insert_of_mem (h : t.lookup k = some v) (v' : β) :
    (t.insert k v').entries.length = t.entries.length := by
  have hkeys : (t.insert k v').keys.length = t.keys.length := by
    have hmem : k ∈ t.keys := mem_keys.1 (lookup_isSome.1 (by simp [h]))
    rw [keys_insert, length_cons, length_erase_of_mem hmem]
    exact Nat.succ_pred_eq_of_pos (length_pos_of_mem hmem)
  simpa only [AList.keys, List.keys, length_map] using hkeys

lemma keys_insert_of_not_mem (h : k ∉ t) (v : β) : (t.insert k v).keys = k :: t.keys := by
  rw [keys_insert, List.erase_of_not_mem fun hmem => h (mem_keys.2 hmem)]

lemma length_erase_of_mem (h : t.lookup k = some v) :
    (t.erase k).entries.length + 1 = t.entries.length := by
  have hkeys : (t.erase k).keys.length + 1 = t.keys.length := by
    have hmem : k ∈ t.keys := mem_keys.1 (lookup_isSome.1 (by simp [h]))
    rw [keys_erase, List.length_erase_of_mem hmem]
    exact Nat.succ_pred_eq_of_pos (length_pos_of_mem hmem)
  simpa [AList.keys, List.keys] using hkeys

lemma length_modify (f : β → β) (t : Map κ β) (k : κ) :
    (modify f t k).entries.length = t.entries.length := by
  unfold modify
  split
  · rfl
  · rename_i v hsome
    exact length_insert_of_mem hsome (f v)

omit [DecidableEq κ] in
lemma length_keep_le (p : κ → β → Bool) (t : Map κ β) :
    (keep p t).entries.length ≤ t.entries.length :=
  filter_sublist.length_le

end

/-! ## Eviction -/

def older (evictable : β → Bool) (age : β → ℕ) (best : Option (Sigma fun _ : κ => β))
    (s : Sigma fun _ : κ => β) : Option (Sigma fun _ : κ => β) :=
  if evictable s.2 then
    match best with
    | none => some s
    | some b => if age s.2 < age b.2 then some s else best
  else best

/-- The oldest of the entries that may be given up, the first one if there are several. -/
def oldest (evictable : β → Bool) (age : β → ℕ) (es : List (Sigma fun _ : κ => β)) :
    Option (Sigma fun _ : κ => β) :=
  es.foldl (older evictable age) none

def visited (rank : κ → ℕ) (t : Map κ β) : List (Sigma fun _ : κ => β) :=
  t.entries.insertionSort fun a b => rank a.1 ≤ rank b.1

/-- Puts an entry in.  In a full table it takes the place of the oldest entry that may be given up,
and without one the table stays as it is. -/
def put (capacity : ℕ) (evictable : β → Bool) (age : β → ℕ) (rank : κ → ℕ)
    (t : Map κ β) (k : κ) (v : β) : Map κ β :=
  if capacity ≤ t.entries.length then
    match oldest evictable age (visited rank t) with
    | none => t
    | some s => (t.erase s.1).insert k v
  else t.insert k v

/-- There is no room for another entry, and no entry may be given up. -/
def Full (capacity : ℕ) (evictable : β → Bool) (t : Map κ β) : Prop :=
  capacity ≤ t.entries.length ∧ ∀ s ∈ t.entries, evictable s.2 = false

section

variable {evictable : β → Bool} {age : β → ℕ} {rank : κ → ℕ} {capacity : ℕ}
variable {t : Map κ β} {k j : κ} {v w : β}

omit [DecidableEq κ] in
lemma oldest_eq (evictable : β → Bool) (age : β → ℕ) (es : List (Sigma fun _ : κ => β)) :
    (oldest evictable age es = none ∧ ∀ s ∈ es, evictable s.2 = false) ∨
      ∃ s ∈ es, evictable s.2 ∧ oldest evictable age es = some s := by
  unfold oldest
  induction es using reverseRecOn with
  | nil => exact .inl ⟨rfl, fun s hs => absurd hs not_mem_nil⟩
  | append_singleton es s ih =>
    rw [foldl_append, foldl_cons]
    generalize es.foldl (older evictable age) none = best at ih ⊢
    unfold older
    cases hs : evictable s.2 with
    | false =>
      rcases ih with ⟨hnone, hall⟩ | ⟨b, hb, hevict, hsome⟩
      · refine .inl ⟨hnone, fun a ha => ?_⟩
        rcases mem_append.1 ha with ha | ha
        · exact hall a ha
        · rw [mem_singleton.1 ha, hs]
      · exact .inr ⟨b, mem_append_left _ hb, hevict, hsome⟩
    | true =>
      right
      have hlast : s ∈ es ++ [s] := mem_append_right _ (mem_singleton_self s)
      rcases ih with ⟨hnone, -⟩ | ⟨b, hb, hevict, hsome⟩
      · rw [hnone]
        exact ⟨s, hlast, hs, rfl⟩
      · rw [hsome]
        by_cases hage : age s.2 < age b.2
        · exact ⟨s, hlast, hs, by simp [hage]⟩
        · exact ⟨b, mem_append_left _ hb, hevict, by simp [hage]⟩

omit [DecidableEq κ] in
lemma mem_visited {s : Sigma fun _ : κ => β} : s ∈ visited rank t ↔ s ∈ t.entries :=
  mem_insertionSort _

/-- **All that `put` can do.**  Either the table is full of entries that may not be given up, and
stays; or the entry goes in, where there was room; or it goes in after an entry has been given up
that may be. -/
lemma put_cases (capacity : ℕ) (evictable : β → Bool) (age : β → ℕ) (rank : κ → ℕ)
    (t : Map κ β) (k : κ) (v : β) :
    (Full capacity evictable t ∧ put capacity evictable age rank t k v = t) ∨
      (t.entries.length < capacity ∧ put capacity evictable age rank t k v = t.insert k v) ∨
      ∃ j w, capacity ≤ t.entries.length ∧ t.lookup j = some w ∧ evictable w ∧
        put capacity evictable age rank t k v = (t.erase j).insert k v := by
  unfold put
  by_cases hfull : capacity ≤ t.entries.length
  · rw [if_pos hfull]
    rcases oldest_eq evictable age (visited rank t) with
      ⟨hnone, hall⟩ | ⟨s, hs, hevict, hsome⟩
    · rw [hnone]
      exact .inl ⟨⟨hfull, fun s hs => hall s (mem_visited.2 hs)⟩, rfl⟩
    · rw [hsome]
      exact .inr (.inr ⟨s.1, s.2, hfull, lookup_eq_some_iff.2 (mem_visited.1 hs), hevict, rfl⟩)
  · rw [if_neg hfull]
    exact .inr (.inl ⟨Nat.lt_of_not_le hfull, rfl⟩)

lemma lookup_put_of_ne (h : t.lookup j = some w) (hkept : evictable w = false) (hne : j ≠ k) :
    (put capacity evictable age rank t k v).lookup j = some w := by
  rcases put_cases capacity evictable age rank t k v with ⟨-, heq⟩ | ⟨-, heq⟩ |
      ⟨i, u, -, hi, hevict, heq⟩
  · rw [heq, h]
  · rw [heq, lookup_insert_ne hne, h]
  · have hother : j ≠ i := by
      rintro rfl
      rw [h] at hi
      rw [Option.some.inj hi, hevict] at hkept
      cases hkept
    rw [heq, lookup_insert_ne hne, lookup_erase_ne hother, h]

lemma put_of_full (h : Full capacity evictable t) : put capacity evictable age rank t k v = t := by
  rcases put_cases capacity evictable age rank t k v with ⟨-, heq⟩ | ⟨hroom, -⟩ |
      ⟨i, u, -, hi, hevict, -⟩
  · exact heq
  · exact absurd h.1 (not_le.2 hroom)
  · have hkept := h.2 _ (lookup_eq_some_iff.1 hi)
    rw [hevict] at hkept
    cases hkept

lemma lookup_put_self (h : ¬ Full capacity evictable t) :
    (put capacity evictable age rank t k v).lookup k = some v := by
  rcases put_cases capacity evictable age rank t k v with
    ⟨hfull, -⟩ | ⟨-, heq⟩ | ⟨i, u, -, -, -, heq⟩
  · exact absurd hfull h
  · rw [heq, lookup_insert]
  · rw [heq, lookup_insert]

/-- **A table does not outgrow its capacity.** -/
lemma length_put (h : t.entries.length ≤ capacity) :
    (put capacity evictable age rank t k v).entries.length ≤ capacity := by
  rcases put_cases capacity evictable age rank t k v with ⟨-, heq⟩ | ⟨hroom, heq⟩ |
      ⟨i, u, hfull, hi, -, heq⟩
  · rw [heq]
    exact h
  · rw [heq]
    exact (length_insert_le t k v).trans hroom
  · rw [heq]
    calc ((t.erase i).insert k v).entries.length
        ≤ (t.erase i).entries.length + 1 := length_insert_le _ k v
      _ = t.entries.length := length_erase_of_mem hi
      _ ≤ capacity := h

end

/-! ## Cutting a table back -/

/-- The loop that looks for the place of the newest entry, with the place and the time it has found
so far.  Of several it keeps the first. -/
def newestLoop (age : β → ℕ) : ℕ × ℕ → ℕ → List (Sigma fun _ : κ => β) → ℕ × ℕ
  | found, _, [] => found
  | found, i, s :: ss =>
    newestLoop age (if found.2 < age s.2 then (i, age s.2) else found) (i + 1) ss

/-- One round of the loop that collects the oldest entries, `batch` of them: once there are so many,
an older entry takes the place of the newest. -/
def collect (batch : ℕ) (age : β → ℕ) (chosen : List (Sigma fun _ : κ => β))
    (s : Sigma fun _ : κ => β) : List (Sigma fun _ : κ => β) :=
  if chosen.length < batch then chosen ++ [s]
  else
    match chosen with
    | [] => chosen
    | c :: cs =>
      let found := newestLoop age (0, age c.2) 1 cs
      if age s.2 < found.2 then chosen.set found.1 s else chosen

/-- The keys that a table of more than `limit` entries gives up: the oldest entries, at least
`least` of them where the table has so many.  No limit is `0`. -/
def surplus (limit least : ℕ) (age : β → ℕ) (rank : κ → ℕ) (t : Map κ β) : List κ :=
  if limit = 0 ∨ t.entries.length ≤ limit then []
  else
    let excess := t.entries.length - limit
    let batch := if t.entries.length < max excess least then excess else max excess least
    ((visited rank t).foldl (collect batch age) []).map Sigma.fst

def eraseAll (t : Map κ β) (ks : List κ) : Map κ β :=
  ks.foldl (fun t k => t.erase k) t

section

variable {limit least : ℕ} {age : β → ℕ} {rank : κ → ℕ} {t : Map κ β}

omit [DecidableEq κ] in
/-- **What the loop has collected**: entries that it has visited, each once, and as many as it has
visited up to `batch`. -/
lemma collect_spec (batch : ℕ) (age : β → ℕ) {es : List (Sigma fun _ : κ => β)}
    (hes : (es.map Sigma.fst).Nodup) :
    let chosen := es.foldl (collect batch age) []
    (chosen.map Sigma.fst).Nodup ∧ chosen ⊆ es ∧ chosen.length = min batch es.length := by
  induction es using reverseRecOn with
  | nil => simp
  | append_singleton es s ih =>
    rw [map_append, nodup_append] at hes
    obtain ⟨hnodup, -, hnew⟩ := hes
    obtain ⟨hkeys, hsub, hlen⟩ := ih hnodup
    rw [foldl_append, foldl_cons, foldl_nil]
    generalize es.foldl (collect batch age) [] = chosen at hkeys hsub hlen ⊢
    have hsub' : chosen ⊆ es ++ [s] := fun c hc => mem_append_left [s] (hsub hc)
    have hs : s.1 ∉ chosen.map Sigma.fst := by
      intro hmem
      obtain ⟨c, hc, hcs⟩ := mem_map.1 hmem
      exact hnew _ (mem_map_of_mem (hsub hc)) _ (mem_singleton_self _) hcs
    simp only [collect, length_append]
    by_cases hroom : chosen.length < batch
    · rw [if_pos hroom, map_append, nodup_append]
      refine ⟨⟨hkeys, nodup_singleton _, ?_⟩, ?_, ?_⟩
      · rintro k hk _ hks rfl
        rw [map_singleton, mem_singleton] at hks
        exact hs (hks ▸ hk)
      · exact append_subset.2 ⟨hsub', subset_append_right es [s]⟩
      · rw [length_append, length_singleton]
        omega
    · rw [if_neg hroom]
      cases chosen with
      | nil => exact ⟨hkeys, hsub', by simp only [length_nil] at hroom hlen ⊢; omega⟩
      | cons c cs =>
        dsimp only
        split
        · refine ⟨?_, ?_, ?_⟩
          · rw [map_set]
            exact hkeys.set hs
          · intro d hd
            rcases mem_or_eq_of_mem_set hd with hd | rfl
            · exact hsub' hd
            · exact mem_append_right es (mem_singleton_self _)
          · rw [length_set]
            omega
        · exact ⟨hkeys, hsub', by omega⟩

omit [DecidableEq κ] in
lemma surplus_of_le (h : limit = 0 ∨ t.entries.length ≤ limit) :
    surplus limit least age rank t = [] := by
  rw [surplus, if_pos h]

lemma lookup_eraseAll (t : Map κ β) (ks : List κ) (k : κ) :
    (eraseAll t ks).lookup k = if k ∈ ks then none else t.lookup k := by
  induction ks generalizing t with
  | nil => simp [eraseAll]
  | cons j ks ih =>
    show (eraseAll (t.erase j) ks).lookup k = _
    rw [ih, lookup_erase]
    by_cases hkj : k = j
    · simp [hkj]
    · simp [hkj]

lemma swept_eraseAll (p : β → Bool) (t : Map κ β) :
    Swept p t (eraseAll t ((t.entries.filter fun s => p s.2).map Sigma.fst)) := by
  intro k v
  have hmem : k ∈ (t.entries.filter fun s => p s.2).map Sigma.fst ↔
      ∃ v, t.lookup k = some v ∧ p v := by
    simp only [mem_map, mem_filter]
    constructor
    · rintro ⟨s, ⟨hs, hp⟩, rfl⟩
      exact ⟨s.2, lookup_eq_some_iff.2 hs, hp⟩
    · rintro ⟨v, hv, hp⟩
      exact ⟨⟨k, v⟩, ⟨lookup_eq_some_iff.1 hv, hp⟩, rfl⟩
  rw [lookup_eraseAll]
  split_ifs with hk
  · obtain ⟨w, hw, hp⟩ := hmem.1 hk
    constructor
    · intro h
      cases h
    · rintro ⟨hv, hnot⟩
      rw [hv] at hw
      rw [← Option.some.inj hw, hnot] at hp
      cases hp
  · refine ⟨fun hv => ⟨hv, ?_⟩, And.left⟩
    by_contra hp
    exact hk (hmem.2 ⟨v, hv, Bool.eq_true_of_not_eq_false hp⟩)

lemma length_eraseAll_le (t : Map κ β) (ks : List κ) :
    (eraseAll t ks).entries.length ≤ t.entries.length := by
  induction ks generalizing t with
  | nil => exact le_refl _
  | cons k ks ih => exact (ih (t.erase k)).trans (kerase_sublist k t.entries).length_le

lemma length_eraseAll {ks : List κ} (hnodup : ks.Nodup) (hmem : ∀ k ∈ ks, k ∈ t) :
    (eraseAll t ks).entries.length + ks.length = t.entries.length := by
  induction ks generalizing t with
  | nil => rfl
  | cons j ks ih =>
    rw [nodup_cons] at hnodup
    have hrest : ∀ k ∈ ks, k ∈ t.erase j := by
      intro k hk
      have hne : k ≠ j := fun h => hnodup.1 (h ▸ hk)
      exact mem_erase.2 ⟨hne, hmem k (mem_cons_of_mem j hk)⟩
    obtain ⟨v, hv⟩ := Option.isSome_iff_exists.1
      (lookup_isSome.2 (hmem j mem_cons_self))
    have hone := length_erase_of_mem hv
    have hall := ih hnodup.2 hrest
    show (eraseAll (t.erase j) ks).entries.length + (ks.length + 1) = _
    omega

lemma length_eraseAll_take {n : ℕ} (rank : κ → ℕ) (hn : n ≤ t.entries.length) :
    (eraseAll t (((visited rank t).map Sigma.fst).take n)).entries.length + n =
      t.entries.length := by
  have hperm : ((visited rank t).map Sigma.fst).Perm t.keys :=
    (perm_insertionSort _ t.entries).map Sigma.fst
  have hlen : ((visited rank t).map Sigma.fst).length = t.entries.length :=
    hperm.length_eq.trans (length_map _)
  have h := length_eraseAll ((hperm.nodup_iff.2 t.keys_nodup).take (i := n))
    fun k hk => mem_keys.2 (hperm.subset (mem_of_mem_take hk))
  rw [length_take, hlen, min_eq_left hn] at h
  exact h

/-- **A table that has been cut back is within its limit.** -/
lemma length_cut (hlimit : limit ≠ 0) :
    (eraseAll t (surplus limit least age rank t)).entries.length ≤ limit := by
  by_cases hle : t.entries.length ≤ limit
  · rw [surplus_of_le (.inr hle)]
    exact hle
  · have hperm : ((visited rank t).map Sigma.fst).Perm t.keys :=
      (perm_insertionSort _ t.entries).map Sigma.fst
    have hvisited : (visited rank t).length = t.entries.length :=
      (perm_insertionSort _ t.entries).length_eq
    -- the batch is large enough, and the table has so many entries
    obtain ⟨batch, hsurplus, hover, hbatch⟩ : ∃ batch,
        surplus limit least age rank t =
          ((visited rank t).foldl (collect batch age) []).map Sigma.fst ∧
        t.entries.length - limit ≤ batch ∧ batch ≤ t.entries.length := by
      refine ⟨_, by rw [surplus, if_neg (not_or.2 ⟨hlimit, hle⟩)], ?_, ?_⟩
      · split <;> omega
      · split <;> omega
    obtain ⟨hnodup, hsub, hlen⟩ := collect_spec batch age (hperm.nodup_iff.2 t.keys_nodup)
    have hcut := length_eraseAll hnodup (by
      intro k hk
      obtain ⟨s, hs, rfl⟩ := mem_map.1 hk
      exact mem_keys.2 (mem_map_of_mem (mem_visited.1 (hsub hs))))
    rw [length_map, hlen] at hcut
    rw [hsurplus]
    omega

end

/-! ## What all values have in common -/

def Each (P : β → Prop) (t : Map κ β) : Prop := ∀ k v, t.lookup k = some v → P v

section

variable {P : β → Prop} {t : Map κ β} {v : β}

lemma each_empty : Each P (∅ : Map κ β) := by
  intro k v h
  simp at h

lemma Each.insert (h : Each P t) (k : κ) (hv : P v) : Each P (t.insert k v) := by
  intro j w hw
  rcases eq_or_ne j k with rfl | hne
  · rw [lookup_insert] at hw
    exact Option.some.inj hw ▸ hv
  · rw [lookup_insert_ne hne] at hw
    exact h j w hw

lemma Each.erase (h : Each P t) (k : κ) : Each P (t.erase k) := by
  intro j w hw
  rcases eq_or_ne j k with rfl | hne
  · rw [AList.lookup_erase] at hw
    cases hw
  · rw [lookup_erase_ne hne] at hw
    exact h j w hw

lemma Each.eraseAll (h : Each P t) (ks : List κ) : Each P (eraseAll t ks) := by
  induction ks generalizing t with
  | nil => exact h
  | cons k ks ih => exact ih (h.erase k)

end

/-! ## Sums over the values -/

def total (f : β → ℕ) (t : Map κ β) : ℕ := (t.entries.map fun s => f s.2).sum

section

variable (f : β → ℕ) {t : Map κ β} {k : κ} {v : β}

lemma total_insert (t : Map κ β) (k : κ) (v : β) :
    total f (t.insert k v) = f v + total f (t.erase k) := by
  rfl

lemma total_erase (h : t.lookup k = some v) : total f (t.erase k) + f v = total f t := by
  have hmem : k ∈ t.keys := mem_keys.1 (lookup_isSome.1 (by simp [h]))
  obtain ⟨w, l₁, l₂, -, hentries, herase⟩ := exists_of_kerase hmem
  have hw : w = v := by
    have hlookup : t.lookup k = some w := by
      rw [lookup_eq_some_iff, hentries]
      exact mem_append_right l₁ mem_cons_self
    exact Option.some.inj (hlookup.symm.trans h)
  have htotal : total f (t.erase k) = ((l₁ ++ l₂).map fun s => f s.2).sum := by
    rw [← herase]
    rfl
  rw [htotal, total, hentries, hw]
  simp only [map_append, map_cons, sum_append, sum_cons]
  omega

lemma total_erase_of_none (h : t.lookup k = none) : total f (t.erase k) = total f t := by
  rw [erase_of_not_mem (lookup_eq_none.1 h)]

end

/-! ## Tables seen through a function -/

def mapEntry (f : β → γ) (s : Sigma fun _ : κ => β) : Sigma fun _ : κ => γ := ⟨s.1, f s.2⟩

def mapValues (f : β → γ) (t : Map κ β) : Map κ γ :=
  ⟨t.entries.map (mapEntry f), NodupKeys.map₂ (fun _ => f) _ t.nodupKeys⟩

end Table

import Reticulum.Transport.HashGen
import Reticulum.Transport.Relay

/-!
# The packet hash list

The hashes of packets that have come through are kept in two **generations**
(`pkg/transport/packet_hashlist.go`).  When the current one has more than half of the maximum, it
becomes the previous one, whose hashes are forgotten.  `HashList` is the list as the source has it,
`PacketHashList` the two sets that it stands for (**`Refines`**).

The calls of `add` fall into **eras**: those the current generation comes from, those the previous
one comes from, and older ones.  Hence the last half of the maximum of distinct hashes is always
remembered (`Eras.seen_of_recent`).
-/

namespace Reticulum

variable {h : Bytes}

open List

def hash32FromSlice (h : Bytes) : Bytes := (h ++ replicate 32 0).take 32

def hashlistMaxSize : ℕ := 1000000

structure HashList where
  max : ℕ
  cur : HashGen
  prev : HashGen
deriving DecidableEq

namespace HashList

def newPacketHashList (limit : ℤ) : HashList where
  max := if limit ≤ 0 then hashlistMaxSize else limit.toNat
  cur := .empty
  prev := .empty

def seen (hl : HashList) (h : Bytes) : Option Bool :=
  if h.length = 0 then some false
  else
    let k := hash32FromSlice h
    (hl.cur.has k).bind fun found => if found then some true else hl.prev.has k

def add (hl : HashList) (h : Bytes) : Option HashList :=
  if h.length = 0 then some hl
  else
    (hl.cur.put (hash32FromSlice h)).map fun cur =>
      let rotateAt := Nat.max (hl.max / 2) 1
      if rotateAt < cur.n then { hl with prev := cur, cur := .empty }
      else { hl with cur }

def len (hl : HashList) : ℕ := hl.cur.n + hl.prev.n

inductive Call where
  | add (h : Bytes)
  | seen (h : Bytes)
deriving DecidableEq

def call (hl : HashList) : Call → Option HashList
  | .add h => hl.add h
  | .seen h => (hl.seen h).map fun _ => hl

def run (hl : HashList) (calls : List Call) : Option HashList := calls.foldlM call hl

def added (calls : List Call) : List Bytes :=
  calls.filterMap fun
    | .add h => if h.length = 0 then none else some (hash32FromSlice h)
    | .seen _ => none

@[simp] lemma added_seen (h : Bytes) (calls : List Call) :
    added (.seen h :: calls) = added calls := rfl

lemma added_add_nil (hnil : h.length = 0) (calls : List Call) :
    added (.add h :: calls) = added calls :=
  filterMap_cons_none (if_pos hnil)

lemma added_add (hne : h.length ≠ 0) (calls : List Call) :
    added (.add h :: calls) = hash32FromSlice h :: added calls :=
  filterMap_cons_some (if_neg hne)

end HashList

/-! ## What the list remembers -/

namespace PacketHashList

def new (max : ℕ) : PacketHashList := ⟨max, [], []⟩

def addAll (hl : PacketHashList) (hashes : List Bytes) : PacketHashList := hashes.foldl add hl

/-- How often the list turns over while these hashes are added. -/
def turns (hl : PacketHashList) : List Bytes → ℕ
  | [] => 0
  | h :: hashes =>
    (if .max (hl.max / 2) 1 < (hl.cur.insert h).length then 1 else 0) + turns (hl.add h) hashes

/-- One of the additions is that of `h`, and the list has turned over at most once since. -/
def Remembers (hl : PacketHashList) (h : Bytes) : List Bytes → Prop
  | [] => False
  | x :: hashes => x = h ∧ hl.turns (x :: hashes) ≤ 1 ∨ (hl.add x).Remembers h hashes

instance decidableRemembers (h : Bytes) :
    ∀ (hashes : List Bytes) (hl : PacketHashList), Decidable (hl.Remembers h hashes)
  | [], _ => inferInstanceAs (Decidable False)
  | x :: hashes, hl =>
    have := decidableRemembers h hashes (hl.add x)
    inferInstanceAs (Decidable (_ ∨ _))

/-- The hash is among the last `n` distinct ones that were added: fewer than `n` others have been
added since. -/
def AmongLast (n : ℕ) (hashes : List Bytes) (h : Bytes) : Prop :=
  ∃ before after, hashes = before ++ h :: after ∧ after.dedup.length < n

/-- What each generation comes from, and how large it may be. -/
structure Eras (hl : PacketHashList) (hashes older prevEra curEra : List Bytes) : Prop where
  hashes_eq : hashes = older ++ prevEra ++ curEra
  mem_cur : ∀ h, h ∈ hl.cur ↔ h ∈ curEra
  mem_prev : ∀ h, h ∈ hl.prev ↔ h ∈ prevEra
  nodup_cur : hl.cur.Nodup
  nodup_prev : hl.prev.Nodup
  length_cur : hl.cur.length ≤ .max (hl.max / 2) 1
  length_prev : hl.prev.length ≤ .max (hl.max / 2) 1 + 1
  older_nil : older = [] ∨ hl.max / 2 < hl.prev.length

section Eras

variable {hl : PacketHashList} {hashes older prevEra curEra : List Bytes}

lemma eras_new (max : ℕ) : (new max).Eras [] [] [] [] where
  hashes_eq := rfl
  mem_cur _ := .rfl
  mem_prev _ := .rfl
  nodup_cur := nodup_nil
  nodup_prev := nodup_nil
  length_cur := Nat.zero_le _
  length_prev := Nat.zero_le _
  older_nil := .inl rfl

lemma Eras.add (e : hl.Eras hashes older prevEra curEra) (h : Bytes) :
    ∃ older prevEra curEra, (hl.add h).Eras (hashes ++ [h]) older prevEra curEra := by
  have hmem : ∀ x, x ∈ hl.cur.insert h ↔ x ∈ curEra ++ [h] := by
    intro x
    rw [mem_insert_iff, mem_append, mem_singleton, e.mem_cur, or_comm]
  have hnodup : (hl.cur.insert h).Nodup := e.nodup_cur.insert
  have hlen : (hl.cur.insert h).length ≤ hl.cur.length + 1 := by
    rw [length_insert]
    split <;> omega
  have hcur := e.length_cur
  by_cases hfull : .max (hl.max / 2) 1 < (hl.cur.insert h).length
  · have hadd : hl.add h = { hl with prev := hl.cur.insert h, cur := [] } := if_pos hfull
    rw [hadd]
    refine ⟨older ++ prevEra, curEra ++ [h], [], ?_⟩
    exact {
      hashes_eq := by rw [e.hashes_eq]; simp
      mem_cur := fun _ => .rfl
      mem_prev := hmem
      nodup_cur := nodup_nil
      nodup_prev := hnodup
      length_cur := Nat.zero_le _
      length_prev := by dsimp only; omega
      older_nil := .inr (lt_of_le_of_lt (le_max_left _ _) hfull) }
  · have hadd : hl.add h = { hl with cur := hl.cur.insert h } := if_neg hfull
    rw [hadd]
    refine ⟨older, prevEra, curEra ++ [h], ?_⟩
    exact { e with
      hashes_eq := by rw [e.hashes_eq]; simp
      mem_cur := hmem
      nodup_cur := hnodup
      length_cur := Nat.le_of_not_lt hfull }

lemma exists_append_of_not_mem {before after rest : List Bytes}
    (heq : before ++ h :: after = older ++ rest) (hrest : h ∉ rest) :
    older ≠ [] ∧ ∃ mid, after = mid ++ rest := by
  rcases append_eq_append_iff.1 heq with ⟨as, hbefore, has⟩ | ⟨cs, -, hcs⟩
  · cases as with
    | nil =>
      rw [nil_append] at has
      exact absurd (has ▸ mem_cons_self) hrest
    | cons x mid =>
      rw [cons_append, cons.injEq] at has
      exact ⟨by rw [hbefore]; simp, mid, has.2⟩
  · rw [hcs] at hrest
    simp at hrest

/-- **The last distinct hashes are remembered.** -/
lemma Eras.seen_of_recent (e : hl.Eras hashes older prevEra curEra)
    (hrecent : AmongLast (hl.max / 2) hashes h) : hl.seen h := by
  obtain ⟨before, after, hsplit, hfew⟩ := hrecent
  by_contra hseen
  simp only [seen, Bool.or_eq_true, decide_eq_true_eq, not_or, e.mem_cur, e.mem_prev] at hseen
  rw [e.hashes_eq, append_assoc] at hsplit
  obtain ⟨holder, mid, hafter⟩ := exists_append_of_not_mem hsplit.symm
    (by simpa using ⟨hseen.2, hseen.1⟩)
  -- then the whole previous era came after it, which has more distinct hashes than that
  have hsubset : hl.prev ⊆ after.dedup := by
    intro x hx
    rw [mem_dedup, hafter]
    simp [(e.mem_prev x).1 hx]
  have hle : hl.prev.length ≤ after.dedup.length :=
    (subperm_of_subset e.nodup_prev hsubset).length_le
  rcases e.older_nil with hnil | hlarge
  · exact holder hnil
  · omega

end Eras

@[simp] lemma max_add (hl : PacketHashList) (h : Bytes) : (hl.add h).max = hl.max := by
  simp only [add]
  split <;> rfl

lemma eras_addAll (max : ℕ) (hashes : List Bytes) :
    ((new max).addAll hashes).max = max ∧
      ∃ older prevEra curEra, ((new max).addAll hashes).Eras hashes older prevEra curEra := by
  induction hashes using reverseRecOn with
  | nil => exact ⟨rfl, [], [], [], eras_new max⟩
  | append_singleton hashes h ih =>
    obtain ⟨hmax, older, prevEra, curEra, e⟩ := ih
    have happend : (new max).addAll (hashes ++ [h]) = ((new max).addAll hashes).add h := by
      simp [addAll]
    rw [happend]
    exact ⟨by rw [max_add, hmax], e.add h⟩

end PacketHashList

/-! ## The tables store the sets -/

open PacketHashList

/-- The tables of the list store the sets of the memory. -/
structure Refines (hl : HashList) (m : PacketHashList) : Prop where
  max_eq : hl.max = m.max
  inUse_cur : hl.cur.InUse
  inUse_prev : hl.prev.InUse
  cur_perm : hl.cur.elems.Perm m.cur
  prev_perm : hl.prev.elems.Perm m.prev

namespace Refines

variable {hl : HashList} {m : PacketHashList}

lemma init (limit : ℤ) : Refines (.newPacketHashList limit)
    (new (HashList.newPacketHashList limit).max) where
  max_eq := rfl
  inUse_cur := HashGen.inUse_empty
  inUse_prev := HashGen.inUse_empty
  cur_perm := Perm.refl _
  prev_perm := Perm.refl _

/-- **`seen` returns, and is right about the sets.** -/
lemma seen (r : Refines hl m) (h : Bytes) :
    hl.seen h = some (!decide (h.length = 0) && m.seen (hash32FromSlice h)) := by
  by_cases hnil : h.length = 0
  · simp [HashList.seen, hnil]
  · simp only [HashList.seen, hnil, if_false, HashGen.has_eq r.inUse_cur,
      HashGen.has_eq r.inUse_prev, r.cur_perm.mem_iff, r.prev_perm.mem_iff, PacketHashList.seen,
      decide_false]
    by_cases hcur : hash32FromSlice h ∈ m.cur <;> simp [hcur]

/-- **`add` returns, and the tables store the sets again.** -/
lemma add (r : Refines hl m) (hne : h.length ≠ 0) :
    ∃ hl', hl.add h = some hl' ∧ Refines hl' (m.add (hash32FromSlice h)) := by
  obtain ⟨cur, hput, hinUse, hperm⟩ := HashGen.put_ok r.inUse_cur (hash32FromSlice h)
  have hperm : cur.elems.Perm (m.cur.insert (hash32FromSlice h)) :=
    hperm.trans (r.cur_perm.insert _)
  have hn : cur.n = (m.cur.insert (hash32FromSlice h)).length := by
    rw [← hinUse.n_eq, hperm.length_eq]
  simp only [HashList.add, hne, if_false, hput, Option.map_some, PacketHashList.add, hn, r.max_eq]
  split
  · exact ⟨_, rfl, rfl, HashGen.inUse_empty, hinUse, Perm.refl _, hperm⟩
  · exact ⟨_, rfl, rfl, hinUse, r.inUse_prev, hperm, r.prev_perm⟩

/-- **Every sequence of calls returns.** -/
lemma run (r : Refines hl m) (calls : List HashList.Call) :
    ∃ hl', hl.run calls = some hl' ∧ Refines hl' (m.addAll (HashList.added calls)) := by
  induction calls generalizing hl m with
  | nil => exact ⟨hl, rfl, r⟩
  | cons c calls ih =>
    cases c with
    | seen h =>
      obtain ⟨hl', hrun, r'⟩ := ih r
      refine ⟨hl', ?_, by rwa [HashList.added_seen]⟩
      simpa [HashList.run, HashList.call, r.seen h] using hrun
    | add h =>
      by_cases hnil : h.length = 0
      · obtain ⟨hl', hrun, r'⟩ := ih r
        refine ⟨hl', ?_, ?_⟩
        · simpa [HashList.run, HashList.call, HashList.add, hnil] using hrun
        · rwa [HashList.added_add_nil hnil]
      · obtain ⟨hl₁, hadd, r₁⟩ := r.add hnil
        obtain ⟨hl', hrun, r'⟩ := ih r₁
        refine ⟨hl', ?_, ?_⟩
        · simpa [HashList.run, HashList.call, hadd] using hrun
        · rwa [HashList.added_add hnil]

end Refines

/-! ## The bounded memory -/

/-- **The packet hash list is a bounded memory of recent hashes.**  Whatever the capacity and the
calls: all of them return, and in the list they leave, each generation has a free slot unless it has
none at all; `seen` returns and is true exactly for the hashes in one of the two sets; the last half
of the maximum of distinct hashes is seen; and no more hashes are stored than one above the maximum,
or two if the maximum is one. -/
theorem hashList_bounded_memory (limit : ℤ) (calls : List HashList.Call) :
    ∃ hl, (HashList.newPacketHashList limit).run calls = some hl ∧
      hl.max = (HashList.newPacketHashList limit).max ∧
      (∀ g ∈ [hl.cur, hl.prev], g.slots = [] ∨ ∃ i < g.slots.length, g.occ.getD i false = false) ∧
      (∀ h, hl.seen h = some (!decide (h.length = 0) &&
        ((new hl.max).addAll (HashList.added calls)).seen (hash32FromSlice h))) ∧
      (∀ h, h.length ≠ 0 → AmongLast (hl.max / 2) (HashList.added calls) (hash32FromSlice h) →
        hl.seen h = some true) ∧
      hl.len ≤ hl.max + (if hl.max = 1 then 2 else 1) := by
  obtain ⟨hl, hrun, r⟩ := (Refines.init limit).run calls
  obtain ⟨hmax, older, prevEra, curEra, e⟩ :=
    eras_addAll (HashList.newPacketHashList limit).max (HashList.added calls)
  have hmax' : hl.max = (HashList.newPacketHashList limit).max := by rw [r.max_eq, hmax]
  refine ⟨hl, hrun, hmax', ?_, ?_, ?_, ?_⟩
  · intro g hg
    simp only [mem_cons, not_mem_nil, or_false] at hg
    rcases hg with rfl | rfl
    · exact r.inUse_cur.exists_free
    · exact r.inUse_prev.exists_free
  · intro h
    rw [r.seen h, hmax']
  · intro h hne hrecent
    rw [r.seen h, e.seen_of_recent (by rwa [hmax, ← hmax'])]
    simp [hne]
  · have hcur : hl.cur.n ≤ max (hl.max / 2) 1 := by
      rw [← r.inUse_cur.n_eq, r.cur_perm.length_eq, r.max_eq]
      exact e.length_cur
    have hprev : hl.prev.n ≤ max (hl.max / 2) 1 + 1 := by
      rw [← r.inUse_prev.n_eq, r.prev_perm.length_eq, r.max_eq]
      exact e.length_prev
    have hpos : 0 < hl.max := by
      rw [hmax', HashList.newPacketHashList]
      dsimp only
      split_ifs with hlim
      · decide
      · omega
    simp only [HashList.len]
    split_ifs with hone <;> omega

/-- With room for four hashes, the first one of two is remembered, and so is the hash of zeros. -/
theorem fourHashes_remembered :
    ∃ hl, (HashList.newPacketHashList 4).run [.add [0], .seen [7], .add [1]] = some hl ∧
      hl.max = 4 ∧ hl.seen [0] = some true := by
  obtain ⟨hl, hrun, hmax, -, -, hseen, -⟩ :=
    hashList_bounded_memory 4 [.add [0], .seen [7], .add [1]]
  have hfour : hl.max = 4 := hmax
  refine ⟨hl, hrun, hfour, hseen [0] (by decide) ?_⟩
  rw [hfour]
  exact ⟨[], [hash32FromSlice [1]], rfl, by decide⟩

/-- With room for one hash, three are stored. -/
theorem oneHash_exceeded :
    ((HashList.newPacketHashList 1).run [.add [1], .add [2], .add [3]]).map
      (fun hl => (hl.max, hl.len)) = some (1, 3) := by
  decide +kernel

end Reticulum

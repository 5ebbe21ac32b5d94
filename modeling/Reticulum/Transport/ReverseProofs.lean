import Reticulum.Transport.InterfaceRemoval
import Reticulum.Transport.LinkRelay

/-!
# The reverse table

A node that carries a packet on records where it came from and where it went, so that a proof can be
sent back (`pkg/transport/reverse.go`).  A proof **looks** the entry up, and **pops** it in a second
section if it came back on the interface on which the packet went out.  If in between a packet is
recorded under the same hash, the proof pops the entry of that packet (`overwritten_not_singleUse`).
Otherwise an entry is used once: **`singleUse_of_undisturbed`**.
-/

namespace Reticulum

def maxReverseEntries : ℕ := 32768

/-- A row of the reverse table.  Rows are compared by address, which `id` stands for. -/
structure RecordedRow extends ReverseRow where
  id : ℕ
deriving DecidableEq

structure FoundRow where
  dest : Bytes
  row : RecordedRow
  iface : ℕ

/-- The table and the proofs between the two steps, with the rows that proofs have consumed, each
with the interface of the proof, and those for which a proof was sent. -/
structure ReverseProofs where
  rows : Map Bytes RecordedRow
  count : ℕ
  pending : List FoundRow
  consumed : List (RecordedRow × ℕ)
  forwarded : List ℕ

/-- A packet is recorded, a proof looks its row up and pops it, rows that are too old are swept, an
interface is removed.  `t` is the node as the proof finds it. -/
inductive ReverseEvent where
  | record (truncatedHash : Bytes) (entry : ReverseEntry) (now : ℕ) (rank : Bytes → ℕ)
  | look (t : Transport) (dest : Bytes) (iface : ℕ)
  | pop (i : ℕ)
  | sweep (now maxAge : ℕ)
  | remove (iface : ℕ)

namespace ReverseProofs

def new : ReverseProofs := ⟨∅, 0, [], [], []⟩

def recordReverseEntry (s : ReverseProofs) (truncatedHash : Bytes) (entry : ReverseEntry)
    (now : ℕ) (rank : Bytes → ℕ) : ReverseProofs :=
  if truncatedHash = [] then s
  else
    { s with
      rows := Table.put maxReverseEntries (fun _ => true) (fun row => row.timestamp) rank s.rows
        (hash16FromSlice truncatedHash) ⟨⟨entry, now⟩, s.count⟩
      count := s.count + 1 }

/-- `forwardReverseProof` up to the point where the row is popped. -/
def look (s : ReverseProofs) (t : Transport) (dest : Bytes) (iface : ℕ) : ReverseProofs :=
  if dest = [] then s
  else match s.rows.lookup (hash16FromSlice dest) with
  | none => s
  | some row =>
    if !t.mayRelayForSharedInstanceClient iface [row.receivedIface] then s
    else if iface ≠ row.outboundIface then s
    else if !(t.interfaces row.receivedIface).isEnabled then s
    else { s with pending := s.pending ++ [⟨hash16FromSlice dest, row, iface⟩] }

def pop (s : ReverseProofs) (p : FoundRow) : ReverseProofs :=
  match s.rows.lookup p.dest with
  | none => s
  | some popped =>
    { s with
      rows := s.rows.erase p.dest
      consumed := s.consumed ++ [(popped, p.iface)]
      forwarded := if popped.id ≠ p.row.id then s.forwarded else s.forwarded ++ [popped.id] }

def step (s : ReverseProofs) : ReverseEvent → ReverseProofs
  | .record truncatedHash entry now rank => s.recordReverseEntry truncatedHash entry now rank
  | .look t dest iface => s.look t dest iface
  | .pop i =>
    match s.pending[i]? with
    | none => s
    | some p => { s with pending := s.pending.eraseIdx i }.pop p
  | .sweep now maxAge =>
    { s with rows := Table.keep (fun _ row => !decide (maxAge < now - row.timestamp)) s.rows }
  | .remove iface =>
    { s with
      rows := Table.keep (fun _ row => !ReverseTable.references iface row.toReverseRow) s.rows }

/-- **Single use**: no row has made two proofs go back, a row is consumed by a proof from its own
interface, a proof from another one changes nothing, and the table is within its bound. -/
structure SingleUse (s : ReverseProofs) : Prop where
  once : s.forwarded.Nodup
  own : ∀ c ∈ s.consumed, c.2 = c.1.outboundIface
  others : ∀ t dest iface, (∀ row, s.rows.lookup (hash16FromSlice dest) = some row →
    iface ≠ row.outboundIface) → s.look t dest iface = s
  bounded : s.rows.entries.length ≤ maxReverseEntries

/-- No packet is recorded under the hash for which a proof is about to pop a row. -/
def Undisturbed (s : ReverseProofs) : ReverseEvent → Prop
  | .record truncatedHash _ _ _ => ∀ p ∈ s.pending, p.dest ≠ hash16FromSlice truncatedHash
  | _ => True

/-! ## Steps -/

/-- The rows have numbers of their own, none of which was used, and what a proof has found is still
there or gone. -/
structure Inv (s : ReverseProofs) : Prop where
  fresh : ∀ k row, s.rows.lookup k = some row → row.id < s.count ∧ row.id ∉ s.forwarded
  distinct : ∀ k k' row row', s.rows.lookup k = some row → s.rows.lookup k' = some row' →
    row.id = row'.id → k = k'
  used : ∀ id ∈ s.forwarded, id < s.count
  once : s.forwarded.Nodup
  own : ∀ c ∈ s.consumed, c.2 = c.1.outboundIface
  found : ∀ p ∈ s.pending, p.iface = p.row.outboundIface ∧
    ∀ row, s.rows.lookup p.dest = some row → row = p.row
  bounded : s.rows.entries.length ≤ maxReverseEntries

variable {s : ReverseProofs}

section

variable (h : Inv s)
include h

lemma Inv.singleUse : SingleUse s := by
  refine { h with others := fun t dest iface hother => ?_ }
  rw [look]
  split
  · rfl
  · split
    · rfl
    · rename_i row hrow
      simp [hother row hrow]

lemma Inv.shrink {rows : Map Bytes RecordedRow}
    (hsub : ∀ k row, rows.lookup k = some row → s.rows.lookup k = some row)
    (hlen : rows.entries.length ≤ s.rows.entries.length) : Inv { s with rows } where
  fresh k row hk := h.fresh k row (hsub k row hk)
  distinct k k' row row' hk hk' := h.distinct k k' row row' (hsub k row hk) (hsub k' row' hk')
  used := h.used
  once := h.once
  own := h.own
  found p hp := ⟨(h.found p hp).1, fun row hrow => (h.found p hp).2 row (hsub _ row hrow)⟩
  bounded := hlen.trans h.bounded

lemma Inv.keep (q : Bytes → RecordedRow → Bool) : Inv { s with rows := Table.keep q s.rows } := by
  refine h.shrink (fun k row hk => ?_) (Table.length_keep_le q s.rows)
  rw [Table.lookup_keep, Option.filter_eq_some_iff] at hk
  exact hk.1

lemma Inv.insert {k : Bytes} {row : RecordedRow} (hid : row.id = s.count)
    (hk : ∀ p ∈ s.pending, p.dest ≠ k)
    (hlen : (s.rows.insert k row).entries.length ≤ maxReverseEntries) :
    Inv { s with rows := s.rows.insert k row, count := s.count + 1 } := by
  have hcases {j x} (hj : (s.rows.insert k row).lookup j = some x) :
      j = k ∧ x = row ∨ j ≠ k ∧ s.rows.lookup j = some x := by
    by_cases hjk : j = k
    · rw [hjk, AList.lookup_insert] at hj
      exact .inl ⟨hjk, (Option.some.inj hj).symm⟩
    · exact .inr ⟨hjk, by rwa [AList.lookup_insert_ne hjk] at hj⟩
  refine ⟨?_, ?_, fun id hid => (h.used id hid).trans (Nat.lt_succ_self _), h.once, h.own, ?_, hlen⟩
  · intro j x hj
    obtain ⟨-, rfl⟩ | ⟨-, hold⟩ := hcases hj
    · exact ⟨hid ▸ Nat.lt_succ_self _, fun hmem => (h.used _ hmem).ne hid⟩
    · exact ⟨(h.fresh j x hold).1.trans (Nat.lt_succ_self _), (h.fresh j x hold).2⟩
  · intro j j' x x' hj hj' heq
    obtain ⟨rfl, rfl⟩ | ⟨-, hold⟩ := hcases hj
    all_goals obtain ⟨rfl, rfl⟩ | ⟨-, hold'⟩ := hcases hj'
    · rfl
    · exact absurd (heq.symm.trans hid) (h.fresh _ _ hold').1.ne
    · exact absurd (heq.trans hid) (h.fresh _ _ hold).1.ne
    · exact h.distinct _ _ _ _ hold hold' heq
  · intro p hp
    refine ⟨(h.found p hp).1, fun x hx => ?_⟩
    obtain ⟨heq, -⟩ | ⟨-, hold⟩ := hcases hx
    · exact absurd heq (hk p hp)
    · exact (h.found p hp).2 x hold

lemma Inv.erase (k : Bytes) : Inv { s with rows := s.rows.erase k } := by
  refine h.shrink (fun j row hj => ?_) (List.kerase_sublist k s.rows.entries).length_le
  rw [Table.lookup_erase] at hj
  split at hj
  · cases hj
  · exact hj

lemma Inv.record {truncatedHash : Bytes} (entry : ReverseEntry) (now : ℕ)
    (rank : Bytes → ℕ) (hk : ∀ p ∈ s.pending, p.dest ≠ hash16FromSlice truncatedHash) :
    Inv (s.recordReverseEntry truncatedHash entry now rank) := by
  rw [recordReverseEntry]
  split
  · exact h
  have hlen : (Table.put maxReverseEntries (fun _ => true) (fun row => row.timestamp) rank s.rows
      (hash16FromSlice truncatedHash) ⟨⟨entry, now⟩, s.count⟩).entries.length ≤
        maxReverseEntries := Table.length_put h.bounded
  rcases Table.put_cases maxReverseEntries (fun _ => true) (fun row => row.timestamp) rank s.rows
    (hash16FromSlice truncatedHash) ⟨⟨entry, now⟩, s.count⟩ with ⟨hfull, -⟩ | ⟨-, heq⟩ |
      ⟨j, old, -, -, -, heq⟩
  · -- every row may be given up
    obtain ⟨x, hx⟩ := List.exists_mem_of_length_pos (lt_of_lt_of_le (by decide) hfull.1)
    cases hfull.2 x hx
  all_goals rw [heq] at hlen ⊢
  · exact h.insert rfl hk hlen
  · exact (h.erase j).insert rfl hk hlen

lemma Inv.pop (i : ℕ) : Inv (s.step (.pop i)) := by
  simp only [step]
  split
  · exact h
  rename_i p hp
  obtain ⟨hiface, hrow⟩ := h.found p (List.mem_of_getElem? hp)
  have hrest : Inv { s with pending := s.pending.eraseIdx i } :=
    { h with found := fun p' hp' => h.found p' (List.mem_of_mem_eraseIdx hp') }
  rw [ReverseProofs.pop]
  split
  · exact hrest
  rename_i popped hpopped
  obtain rfl := hrow popped hpopped
  obtain ⟨hlt, hnot⟩ := h.fresh _ _ hpopped
  have herase := hrest.erase p.dest
  simp only [ne_eq]
  refine { herase with
    fresh := fun k row hk => ⟨(herase.fresh k row hk).1, ?_⟩, used := ?_, once := ?_, own := ?_ }
  · -- another row has another number
    rw [Table.lookup_erase] at hk
    split at hk
    · cases hk
    · rename_i hne
      have hother : row.id ≠ p.row.id := fun heq => hne (h.distinct _ _ _ _ hk hpopped heq)
      simpa [hother] using (h.fresh k row hk).2
  · exact List.forall_mem_append.2 ⟨h.used, by simpa using hlt⟩
  · exact List.nodup_append.2 ⟨h.once, List.nodup_singleton _, by
      rintro id hid _ hsingle rfl
      exact hnot (List.mem_singleton.1 hsingle ▸ hid)⟩
  · exact List.forall_mem_append.2 ⟨h.own, by simpa using hiface⟩

lemma Inv.look (t : Transport) (dest : Bytes) (iface : ℕ) : Inv (s.look t dest iface) := by
  rw [ReverseProofs.look]
  split
  · exact h
  split
  · exact h
  rename_i row hrow
  split_ifs with _ hiface
  · exact h
  · exact h
  · exact h
  refine { h with found := fun p hp => ?_ }
  rcases List.mem_append.1 hp with hp | hp
  · exact h.found p hp
  · obtain rfl := List.mem_singleton.1 hp
    exact ⟨not_not.1 hiface, fun row' hrow' => Option.some.inj (hrow'.symm.trans hrow)⟩

lemma Inv.step {e : ReverseEvent} (he : s.Undisturbed e) : Inv (s.step e) := by
  cases e with
  | record truncatedHash entry now rank => exact h.record entry now rank he
  | look t dest iface => exact h.look t dest iface
  | pop i => exact h.pop i
  | sweep now maxAge | remove iface => exact h.keep _

end

/-- **Every row serves once**, and only its own interface, in every run in which no packet is
recorded between the two steps of a proof for its hash. -/
theorem singleUse_of_undisturbed (es : List ReverseEvent)
    (hes : Run.Along step Undisturbed new es) : Run.Always step SingleUse new es := by
  have hnew : Inv new :=
    ⟨by nofun, by nofun, by nofun, List.nodup_nil, by nofun, by nofun, Nat.zero_le _⟩
  exact (Run.always_of_along (fun _ _ h => h.step) hnew hes).mono fun _ h => h.singleUse

/-- A packet went from interface 0 to interface 1; its proof comes back twice. -/
theorem singleUse_of_two_proofs :
    Run.Always step SingleUse new
      [.record [7] ⟨0, 1⟩ 5 fun _ => 0, .look Transport.someRelay [7] 1,
        .look Transport.someRelay [7] 1, .pop 0, .pop 0] :=
  singleUse_of_undisturbed _ ⟨by nofun, trivial, trivial, trivial, trivial, trivial⟩

/-- Before the proof pops the row, a packet with the same hash goes from interface 0 to interface 2,
and its row is consumed by the proof from interface 1. -/
theorem overwritten_not_singleUse :
    ¬ Run.Always step SingleUse new
      [.record [7] ⟨0, 1⟩ 5 fun _ => 0, .look Transport.someRelay [7] 1,
        .record [7] ⟨0, 2⟩ 6 fun _ => 0, .pop 0] := by
  intro h
  have hown := h.last.own (⟨⟨⟨0, 2⟩, 6⟩, 1⟩, 1) (by decide +kernel)
  cases hown

end ReverseProofs

end Reticulum

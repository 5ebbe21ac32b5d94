import Reticulum.Core.Bytes
import Reticulum.Core.Run
import Reticulum.Core.Table

/-!
# Ratchets of other destinations

A sender encrypts to the last **ratchet** of a destination it has heard of.  `RememberRatchet` and
`CopyRatchet` (`pkg/identity/known_ratchets.go`) keep ratchets in a table of bounded size and in a
file for each destination.  Files are written at a limited rate, and writing may fail.

Both calls hold the lock for the memory only, so a call is several steps here: a file is written
after the memory was changed (`persists`), and read (`loads`) before it is put into memory
(`overtaken_load`).  **`fresh_of_allowed`** says when `CopyRatchet` returns the ratchet that was
remembered last.
-/

namespace Reticulum

open List Function

namespace Identity.Constants

def ratchetSize : ℕ := 32
def ratchetExpiry : ℤ := 2592000
def maxKnownRatchets : ℕ := 2048

end Identity.Constants

open Identity.Constants

structure KnownRatchetEntry where
  key : Bytes
  received : ℤ
deriving DecidableEq

structure KnownRatchetFile where
  ratchet : Bytes
  received : ℤ
deriving DecidableEq

def knownDestKey (destHash : Bytes) : Bytes := (destHash ++ replicate 16 0).take 16

lemma knownDestKey_eq {destHash : Bytes} (h : destHash.length = 16) :
    knownDestKey destHash = destHash := by
  rw [knownDestKey, ← h, take_left]

structure KnownRatchets where
  /-- nothing is kept on disk -/
  inMemory : Bool
  clock : ℤ
  knownRatchets : Map Bytes KnownRatchetEntry
  files : Bytes → Option KnownRatchetFile
  /-- entries for which `persistKnownRatchet` was called -/
  persists : List (Bytes × KnownRatchetEntry)
  /-- destinations for which `loadKnownRatchetFromDisk` was called, and what was read -/
  loads : List (Bytes × Option KnownRatchetFile)
  /-- the last ratchet passed to `RememberRatchet` -/
  remembered : Bytes → Option Bytes
  /-- what `CopyRatchet` has returned for a destination, and what had been remembered last then -/
  returned : List (Bytes × Bytes × Option Bytes)

/-- A step of a call, something that happens to the files, or time that goes by.  The map is visited
in the order of `rank`. -/
inductive RatchetEvent where
  | remember (destHash ratchet : Bytes) (rank : Bytes → ℕ)
  | persist (n : ℕ) (written : Bool)
  | copy (destHash : Bytes)
  | read (n : ℕ)
  | store (n : ℕ) (rank : Bytes → ℕ)
  | clean
  | remove (destHash : Bytes)
  | wait (seconds : ℕ)

namespace KnownRatchets

/-- The keys that `evictKnownRatchetsLocked` deletes: the first ones, as many as there are too many,
but not the one to keep. -/
def evicted (rank : Bytes → ℕ) (keep : Bytes) (t : Map Bytes KnownRatchetEntry) : List Bytes :=
  if t.entries.length ≤ maxKnownRatchets then []
  else (((Table.visited rank t).map Sigma.fst).filter (· ≠ keep)).take
    (t.entries.length - maxKnownRatchets)

def evictKnownRatchets (rank : Bytes → ℕ) (keep : Bytes)
    (t : Map Bytes KnownRatchetEntry) : Map Bytes KnownRatchetEntry :=
  Table.eraseAll t (evicted rank keep t)

section

variable (s : KnownRatchets)

def rememberRatchet (destHash ratchet : Bytes) (rank : Bytes → ℕ) : KnownRatchets :=
  let key := knownDestKey destHash
  let remembered := update s.remembered destHash (some ratchet)
  if destHash.length = 0 ∨ ratchet.length ≠ ratchetSize then s
  else if (s.knownRatchets.lookup key).map (·.key) = some ratchet then
    { s with remembered }
  else
    let entry : KnownRatchetEntry := { key := ratchet, received := s.clock }
    { s with
      knownRatchets := evictKnownRatchets rank key (s.knownRatchets.insert key entry)
      persists := if s.inMemory then s.persists else s.persists ++ [(destHash, entry)]
      remembered }

/-- `persistKnownRatchet` of the `n`-th entry that is to be persisted.  It writes nothing if the
limit is reached or there is an error. -/
def persistKnownRatchet (n : ℕ) (written : Bool) : KnownRatchets :=
  match s.persists[n]? with
  | none => s
  | some (destHash, entry) =>
    { s with
      persists := s.persists.eraseIdx n
      files :=
        if written then
          update s.files destHash
            (some { ratchet := entry.key, received := entry.received })
        else s.files }

def copyRatchet (destHash : Bytes) : KnownRatchets :=
  let key := knownDestKey destHash
  if destHash.length = 0 then s
  else
    match s.knownRatchets.lookup key with
    | some e =>
      if s.clock < e.received + ratchetExpiry ∧ e.key.length = ratchetSize then
        { s with returned := s.returned ++ [(destHash, e.key, s.remembered destHash)] }
      else { s with knownRatchets := s.knownRatchets.erase key }
    | none => if s.inMemory then s else { s with loads := s.loads ++ [(destHash, none)] }

def readKnownRatchet (n : ℕ) : KnownRatchets :=
  match s.loads[n]? with
  | some (destHash, none) =>
    match s.files destHash with
    | none => { s with loads := s.loads.eraseIdx n }
    | some f =>
      if f.received + ratchetExpiry ≤ s.clock ∨ f.ratchet.length ≠ ratchetSize then
        { s with loads := s.loads.eraseIdx n }
      else { s with loads := s.loads.set n (destHash, some f) }
  | _ => s

/-- `loadKnownRatchetFromDisk` from the lock on: what was read goes into memory, and is returned. -/
def storeKnownRatchet (n : ℕ) (rank : Bytes → ℕ) : KnownRatchets :=
  match s.loads[n]? with
  | some (destHash, some f) =>
    let key := knownDestKey destHash
    { s with
      knownRatchets := evictKnownRatchets rank key
        (s.knownRatchets.insert key { key := f.ratchet, received := f.received })
      loads := s.loads.eraseIdx n
      returned := s.returned ++ [(destHash, f.ratchet, s.remembered destHash)] }
  | _ => s

def step : RatchetEvent → KnownRatchets
  | .remember destHash ratchet rank => s.rememberRatchet destHash ratchet rank
  | .persist n written => s.persistKnownRatchet n written
  | .copy destHash => s.copyRatchet destHash
  | .read n => s.readKnownRatchet n
  | .store n rank => s.storeKnownRatchet n rank
  -- the part of `CleanKnownRatchets` that has the lock; the files that it removes are `remove`
  | .clean => { s with
      knownRatchets :=
        Table.keep (fun _ e => s.clock < e.received + ratchetExpiry) s.knownRatchets }
  | .remove destHash => { s with files := update s.files destHash none }
  | .wait seconds => { s with clock := s.clock + seconds }

def init (inMemory : Bool) (clock : ℤ) (files : Bytes → Option KnownRatchetFile) :
    KnownRatchets where
  inMemory
  clock
  knownRatchets := ∅
  files
  persists := []
  loads := []
  remembered k := (files k).map (·.ratchet)
  returned := []

def Fresh : Prop := ∀ r ∈ s.returned, r.2.2 = some r.2.1

/-! ## Stale files -/

def Usable (f : KnownRatchetFile) : Prop :=
  s.clock < f.received + ratchetExpiry ∧ f.ratchet.length = ratchetSize

/-- There is a file for the destination that could be loaded, with a ratchet that is not the last
one. -/
def Stale (k : Bytes) : Prop :=
  ∃ f, s.files k = some f ∧ s.Usable f ∧ s.remembered k ≠ some f.ratchet

/-- The calls for one destination do not overlap, and no destination is evicted that has a stale
file. -/
def Allowed : RatchetEvent → Prop
  | .remember destHash ratchet rank => destHash.length = 16 ∧
    (∀ p ∈ s.persists, p.1 ≠ destHash) ∧ (∀ l ∈ s.loads, l.1 ≠ destHash) ∧
    ((s.knownRatchets.lookup destHash).map (·.key) ≠ some ratchet →
      ∀ k ∈ evicted rank destHash
        (s.knownRatchets.insert destHash { key := ratchet, received := s.clock }), ¬ s.Stale k)
  | .copy destHash => destHash.length = 16
  | .store n rank => ∀ destHash f, s.loads[n]? = some (destHash, some f) →
    ∀ k ∈ evicted rank destHash
      (s.knownRatchets.insert destHash { key := f.ratchet, received := f.received }), ¬ s.Stale k
  | _ => True

end

/-! ## The invariant -/

/-- What is in memory was remembered last, and so was what is on its way to the disk or from it.
Without an entry in memory no file is stale; with one, a stale file expires no later than the
entry. -/
structure Inv (s : KnownRatchets) : Prop where
  memory : ∀ k e, s.knownRatchets.lookup k = some e →
    s.remembered k = some e.key ∧ e.key.length = ratchetSize ∧ e.received ≤ s.clock
  disk : ∀ k f, s.files k = some f → f.received ≤ s.clock
  absent : ∀ k, s.knownRatchets.lookup k = none → ¬ s.Stale k
  older : ∀ k e f, s.knownRatchets.lookup k = some e → s.files k = some f → s.Usable f →
    s.remembered k ≠ some f.ratchet → f.received ≤ e.received
  persisting : ∀ p ∈ s.persists, s.remembered p.1 = some p.2.key ∧ p.2.received ≤ s.clock
  loading : ∀ l ∈ s.loads, l.1.length = 16 ∧ ¬ s.Stale l.1 ∧ ∀ f, l.2 = some f →
    s.remembered l.1 = some f.ratchet ∧ f.ratchet.length = ratchetSize ∧ f.received ≤ s.clock
  fresh : s.Fresh

variable {s s' : KnownRatchets} {destHash : Bytes} {rank : Bytes → ℕ}

lemma not_mem_evicted (rank : Bytes → ℕ) (keep : Bytes)
    (t : Map Bytes KnownRatchetEntry) : keep ∉ evicted rank keep t := by
  rw [evicted]
  split_ifs
  · exact not_mem_nil
  · intro hmem
    have hfilter := mem_of_mem_take hmem
    simp at hfilter

lemma lookup_evict_insert (rank : Bytes → ℕ) (t : Map Bytes KnownRatchetEntry)
    (key : Bytes) (entry : KnownRatchetEntry) (k : Bytes) :
    (evictKnownRatchets rank key (t.insert key entry)).lookup k =
      if k = key then some entry
      else if k ∈ evicted rank key (t.insert key entry) then none else t.lookup k := by
  rw [evictKnownRatchets, Table.lookup_eraseAll]
  by_cases hk : k = key
  · subst hk
    rw [if_neg (not_mem_evicted rank k _), if_pos rfl, AList.lookup_insert]
  · rw [if_neg hk, AList.lookup_insert_ne hk]
    by_cases hmem : k ∈ evicted rank key (t.insert key entry)
    · rw [if_pos hmem, if_pos hmem]
    · rw [if_neg hmem, if_neg hmem]

lemma Inv.not_stale_of_expired (h : s.Inv) {k : Bytes} {e : KnownRatchetEntry}
    (he : s.knownRatchets.lookup k = some e) (hexpired : e.received + ratchetExpiry ≤ s.clock) :
    ¬ s.Stale k := by
  rintro ⟨f, hf, husable, hne⟩
  have hle := h.older k e f he hf husable hne
  have hlt := husable.1
  omega

/-- Time goes by, less is in memory and under way, and a new file has the last ratchet. -/
lemma Inv.of_less (h : s.Inv) (hlast : s'.remembered = s.remembered) (hclock : s.clock ≤ s'.clock)
    (hmemory : ∀ k e, s'.knownRatchets.lookup k = some e → s.knownRatchets.lookup k = some e)
    (hgone : ∀ k, s'.knownRatchets.lookup k = none → ¬ s.Stale k)
    (hfiles : ∀ k f, s'.files k = some f →
      s.files k = some f ∨ s.remembered k = some f.ratchet ∧ f.received ≤ s.clock)
    (hpersists : s'.persists ⊆ s.persists) (hloads : s'.loads ⊆ s.loads) (hfresh : s'.Fresh) :
    s'.Inv := by
  have husable : ∀ f, s'.Usable f → s.Usable f := fun f hf => ⟨hclock.trans_lt hf.1, hf.2⟩
  have hold : ∀ k f, s'.files k = some f → s'.remembered k ≠ some f.ratchet →
      s.files k = some f ∧ s.remembered k ≠ some f.ratchet := by
    intro k f hf hne
    rw [hlast] at hne
    exact ⟨(hfiles k f hf).resolve_right fun hnew => hne hnew.1, hne⟩
  have hstale : ∀ k, s'.Stale k → s.Stale k := by
    rintro k ⟨f, hf, hu, hne⟩
    exact ⟨f, (hold k f hf hne).1, husable f hu, (hold k f hf hne).2⟩
  refine ⟨?_, ?_, fun k hk hs => hgone k hk (hstale k hs), ?_, ?_, ?_, hfresh⟩
  · intro k e he
    obtain ⟨hkey, hsize, hreceived⟩ := h.memory k e (hmemory k e he)
    exact ⟨hlast ▸ hkey, hsize, hreceived.trans hclock⟩
  · intro k f hf
    rcases hfiles k f hf with hf | ⟨-, hle⟩
    · exact (h.disk k f hf).trans hclock
    · exact hle.trans hclock
  · intro k e f he hf hu hne
    obtain ⟨hf, hne⟩ := hold k f hf hne
    exact h.older k e f (hmemory k e he) hf (husable f hu) hne
  · intro p hp
    obtain ⟨hkey, hreceived⟩ := h.persisting p (hpersists hp)
    exact ⟨hlast ▸ hkey, hreceived.trans hclock⟩
  · intro l hl
    obtain ⟨hlength, hnot, hread⟩ := h.loading l (hloads hl)
    refine ⟨hlength, fun hs => hnot (hstale l.1 hs), ?_⟩
    intro f hf
    obtain ⟨hkey, hsize, hreceived⟩ := hread f hf
    exact ⟨hlast ▸ hkey, hsize, hreceived.trans hclock⟩

def put (s : KnownRatchets) (rank : Bytes → ℕ) (destHash : Bytes) (entry : KnownRatchetEntry) :
    KnownRatchets :=
  { s with
    knownRatchets := evictKnownRatchets rank destHash (s.knownRatchets.insert destHash entry)
    remembered := update s.remembered destHash (some entry.key) }

/-- The last ratchet of a destination goes into memory. -/
lemma Inv.put (h : s.Inv) (entry : KnownRatchetEntry)
    (hsize : entry.key.length = ratchetSize) (hreceived : entry.received ≤ s.clock)
    (holder : ∀ f, s.files destHash = some f → s.Usable f → some entry.key ≠ some f.ratchet →
      f.received ≤ entry.received)
    (hevicted : ∀ k ∈ evicted rank destHash (s.knownRatchets.insert destHash entry), ¬ s.Stale k)
    (hpersists : ∀ p ∈ s.persists, p.1 = destHash → s.remembered destHash = some entry.key)
    (hloads : ∀ l ∈ s.loads, l.1 = destHash → s.remembered destHash = some entry.key) :
    (s.put rank destHash entry).Inv := by
  have hother : ∀ k, (k = destHash → s.remembered destHash = some entry.key) →
      update s.remembered destHash (some entry.key) k = s.remembered k := by
    intro k hk
    by_cases heq : k = destHash
    · rw [heq, update_self, hk heq]
    · exact update_of_ne heq _ _
  have hstale : ∀ k, (k = destHash → s.remembered destHash = some entry.key) → ¬ s.Stale k →
      ¬ (s.put rank destHash entry).Stale k := by
    rintro k hk hnot ⟨f, hf, husable, hne⟩
    exact hnot ⟨f, hf, husable, fun hr => hne ((hother k hk).trans hr)⟩
  refine ⟨?_, h.disk, ?_, ?_, ?_, ?_, h.fresh⟩
  · intro k e he
    rw [KnownRatchets.put, lookup_evict_insert] at he
    split_ifs at he with hk hgone
    · subst hk
      obtain rfl := Option.some.inj he
      exact ⟨update_self _ _ _, hsize, hreceived⟩
    · obtain ⟨hlast, hrest⟩ := h.memory k e he
      exact ⟨(update_of_ne hk _ _).trans hlast, hrest⟩
  · intro k hk
    rw [KnownRatchets.put, lookup_evict_insert] at hk
    split_ifs at hk with heq hgone
    · exact hstale k (absurd · heq) (hevicted k hgone)
    · exact hstale k (absurd · heq) (h.absent k hk)
  · intro k e f he hf husable hne
    rw [KnownRatchets.put, lookup_evict_insert] at he
    split_ifs at he with hk hgone
    · subst hk
      obtain rfl := Option.some.inj he
      exact holder f hf husable fun hr => hne ((update_self _ _ _).trans hr)
    · exact h.older k e f he hf husable fun hr => hne ((update_of_ne hk _ _).trans hr)
  · intro p hp
    obtain ⟨hlast, hle⟩ := h.persisting p hp
    exact ⟨(hother p.1 (hpersists p hp)).trans hlast, hle⟩
  · intro l hl
    obtain ⟨hlength, hnot, hread⟩ := h.loading l hl
    refine ⟨hlength, hstale l.1 (hloads l hl) hnot, ?_⟩
    intro f hf
    obtain ⟨hlast, hrest⟩ := hread f hf
    exact ⟨(hother l.1 (hloads l hl)).trans hlast, hrest⟩

lemma Inv.remember (h : s.Inv) {ratchet : Bytes}
    (ha : s.Allowed (.remember destHash ratchet rank)) :
    (s.rememberRatchet destHash ratchet rank).Inv := by
  obtain ⟨hlen, hpersists, hloads, hevicted⟩ := ha
  simp only [rememberRatchet]
  rw [knownDestKey_eq hlen]
  split_ifs with hbad hknown hmode
  · exact h
  · -- the ratchet is known, and so was remembered last already
    have hsame : update s.remembered destHash (some ratchet) = s.remembered := by
      obtain ⟨e, he, hkey⟩ := Option.map_eq_some_iff.1 hknown
      rw [update_eq_self_iff, ← hkey]
      exact ((h.memory destHash e he).1).symm
    rw [hsame]
    exact h
  all_goals
    have hput := h.put ⟨ratchet, s.clock⟩ (by simpa using (not_or.1 hbad).2) le_rfl
      (fun f hf _ _ => h.disk destHash f hf) (hevicted hknown)
      (fun p hp heq => absurd heq (hpersists p hp)) (fun l hl heq => absurd heq (hloads l hl))
  · exact hput
  · refine { hput with persisting := ?_ }
    intro p hp
    rcases mem_append.1 hp with hp | hp
    · exact hput.persisting p hp
    · rw [mem_singleton.1 hp]
      exact ⟨update_self _ _ _, le_rfl⟩

lemma Inv.persist (h : s.Inv) (n : ℕ) (written : Bool) : (s.persistKnownRatchet n written).Inv := by
  unfold persistKnownRatchet
  cases hn : s.persists[n]? with
  | none => exact h
  | some p =>
    obtain ⟨destHash, entry⟩ := p
    refine h.of_less rfl le_rfl (fun _ _ => id) h.absent ?_ (fun _ => mem_of_mem_eraseIdx)
      (Subset.refl _) h.fresh
    intro k f hf
    dsimp only at hf
    split_ifs at hf
    · rcases eq_or_ne k destHash with rfl | hk
      · rw [update_self] at hf
        obtain rfl := Option.some.inj hf
        exact .inr (h.persisting _ (mem_of_getElem? hn))
      · exact .inl ((update_of_ne hk _ _).symm.trans hf)
    · exact .inl hf

lemma Fresh.append {ratchet : Bytes} (h : s.Fresh) (hlast : s.remembered destHash = some ratchet) :
    ∀ r ∈ s.returned ++ [(destHash, ratchet, s.remembered destHash)], r.2.2 = some r.2.1 := by
  intro r hr
  rcases mem_append.1 hr with hr | hr
  · exact h r hr
  · rw [mem_singleton.1 hr]
    exact hlast

lemma Inv.copy (h : s.Inv) (hlen : destHash.length = 16) : (s.copyRatchet destHash).Inv := by
  simp only [copyRatchet]
  rw [knownDestKey_eq hlen, if_neg (by omega)]
  cases he : s.knownRatchets.lookup destHash with
  | some e =>
    obtain ⟨hlast, hsize, -⟩ := h.memory destHash e he
    dsimp only
    split_ifs with hlive
    · exact { h with fresh := h.fresh.append hlast }
    · have hexpired : e.received + ratchetExpiry ≤ s.clock := by
        by_contra hlt
        exact hlive ⟨not_le.1 hlt, hsize⟩
      refine h.of_less rfl le_rfl ?_ ?_ (fun _ _ => .inl) (Subset.refl _) (Subset.refl _) h.fresh
      · intro k e' hk
        rcases eq_or_ne k destHash with rfl | hne
        · rw [AList.lookup_erase] at hk
          cases hk
        · rwa [AList.lookup_erase_ne hne] at hk
      · intro k hk
        rcases eq_or_ne k destHash with rfl | hne
        · exact h.not_stale_of_expired he hexpired
        · rw [AList.lookup_erase_ne hne] at hk
          exact h.absent k hk
  | none =>
    dsimp only
    split_ifs
    · exact h
    · refine { h with loading := ?_ }
      intro l hl
      rcases mem_append.1 hl with hl | hl
      · exact h.loading l hl
      · rw [mem_singleton.1 hl]
        exact ⟨hlen, h.absent destHash he, fun f hf => by cases hf⟩

lemma Inv.dropLoad (h : s.Inv) (n : ℕ) : Inv { s with loads := s.loads.eraseIdx n } :=
  h.of_less rfl le_rfl (fun _ _ => id) h.absent (fun _ _ => .inl) (Subset.refl _)
    (fun _ => mem_of_mem_eraseIdx) h.fresh

lemma Inv.read (h : s.Inv) (n : ℕ) : (s.readKnownRatchet n).Inv := by
  unfold readKnownRatchet
  split
  next destHash hn =>
    obtain ⟨hlen, hstale, -⟩ := h.loading _ (mem_of_getElem? hn)
    cases hf : s.files destHash with
    | none => exact h.dropLoad n
    | some f =>
      dsimp only
      split_ifs with hbad
      · exact h.dropLoad n
      · simp only [not_or, not_le, not_not] at hbad
        have hlast : s.remembered destHash = some f.ratchet := by
          by_contra hne
          exact hstale ⟨f, hf, hbad, hne⟩
        refine { h with loading := ?_ }
        intro l hl
        rcases mem_or_eq_of_mem_set hl with hl | rfl
        · exact h.loading l hl
        · refine ⟨hlen, hstale, ?_⟩
          intro f' hf'
          obtain rfl := Option.some.inj hf'
          exact ⟨hlast, hbad.2, h.disk destHash f hf⟩
  next => exact h

lemma Inv.store (h : s.Inv) {n : ℕ} (ha : s.Allowed (.store n rank)) :
    (s.storeKnownRatchet n rank).Inv := by
  unfold storeKnownRatchet
  split
  next destHash f hn =>
    obtain ⟨hlen, hstale, hread⟩ := h.loading _ (mem_of_getElem? hn)
    obtain ⟨hlast, hsize, hreceived⟩ := hread f rfl
    rw [knownDestKey_eq hlen]
    have hput := (h.dropLoad n).put ⟨f.ratchet, f.received⟩ hsize hreceived
      (fun f' hf husable hne => absurd ⟨f', hf, husable, hlast ▸ hne⟩ hstale) (ha destHash f hn)
      (fun _ _ _ => hlast) (fun _ _ _ => hlast)
    rw [KnownRatchets.put, update_eq_self_iff.2 hlast.symm] at hput
    exact { hput with fresh := h.fresh.append hlast }
  next => exact h

lemma Inv.clean (h : s.Inv) : (s.step .clean).Inv := by
  have hkeep : ∀ k, (s.step .clean).knownRatchets.lookup k =
      (s.knownRatchets.lookup k).filter fun e => s.clock < e.received + ratchetExpiry := by
    intro k
    exact Table.lookup_keep _ s.knownRatchets k
  refine h.of_less rfl le_rfl ?_ ?_ (fun _ _ => .inl) (Subset.refl _) (Subset.refl _) h.fresh
  · intro k e he
    rw [hkeep, Option.filter_eq_some_iff] at he
    exact he.1
  · intro k hk
    rw [hkeep] at hk
    cases he : s.knownRatchets.lookup k with
    | none => exact h.absent k he
    | some e =>
      refine h.not_stale_of_expired he ?_
      by_contra hlt
      simp [he, Option.filter, not_le.1 hlt] at hk

lemma Inv.remove (h : s.Inv) (destHash : Bytes) : (s.step (.remove destHash)).Inv := by
  refine h.of_less rfl le_rfl (fun _ _ => id) h.absent ?_ (Subset.refl _) (Subset.refl _) h.fresh
  intro k f hf
  rcases eq_or_ne k destHash with rfl | hk
  · simp [step] at hf
  · exact .inl ((update_of_ne hk _ _).symm.trans hf)

lemma Inv.wait (h : s.Inv) (seconds : ℕ) : (s.step (.wait seconds)).Inv :=
  h.of_less rfl (le_add_of_nonneg_right (Int.natCast_nonneg _)) (fun _ _ => id) h.absent
    (fun _ _ => .inl) (Subset.refl _) (Subset.refl _) h.fresh

/-- **One step** that is allowed keeps the invariant. -/
lemma Inv.step (h : s.Inv) {e : RatchetEvent} (ha : s.Allowed e) : (s.step e).Inv := by
  cases e with
  | remember destHash ratchet rank => exact h.remember ha
  | persist n written => exact h.persist n written
  | copy destHash => exact h.copy ha
  | read n => exact h.read n
  | store n rank => exact h.store ha
  | clean => exact h.clean
  | remove destHash => exact h.remove destHash
  | wait seconds => exact h.wait seconds

lemma inv_init (inMemory : Bool) {clock : ℤ} {files : Bytes → Option KnownRatchetFile}
    (hfiles : ∀ k f, files k = some f → f.received ≤ clock) : (init inMemory clock files).Inv where
  memory k e he := by cases he
  disk := hfiles
  absent k _ := by
    rintro ⟨f, hf, -, hne⟩
    exact hne (congrArg (Option.map KnownRatchetFile.ratchet) hf)
  older k e f he := by cases he
  persisting p hp := by cases hp
  loading l hl := by cases hl
  fresh r hr := by cases hr

/-- **Senders do not go back to an older ratchet** in a run in which the calls for one destination
do not overlap, and no destination is evicted from memory while there is an older ratchet on disk.
The files that are there in the beginning were written before. -/
theorem fresh_of_allowed (inMemory : Bool) (clock : ℤ) (files : Bytes → Option KnownRatchetFile)
    (hfiles : ∀ k f, files k = some f → f.received ≤ clock) (es : List RatchetEvent)
    (h : Run.Along step Allowed (init inMemory clock files) es) :
    Run.Always step Fresh (init inMemory clock files) es :=
  (Run.always_of_along (fun _ _ hs ha => hs.step ha) (inv_init inMemory hfiles) h).mono
    fun _ hs => hs.fresh

def fileOfOne (k : Bytes) : Option KnownRatchetFile :=
  if k = replicate 16 1 then some ⟨replicate 32 2, 0⟩ else none

lemma received_fileOfOne : ∀ k f, fileOfOne k = some f → f.received ≤ 0 := by
  intro k f hf
  rw [fileOfOne] at hf
  split_ifs at hf
  rw [← Option.some.inj hf]

/-- A ratchet is read from its file, a newer one is remembered, which is not written, and one of
another destination, which is; all three are returned. -/
theorem fresh_of_remembered :
    Run.Always step Fresh (init false 0 fileOfOne)
      [.copy (replicate 16 1), .read 0, .store 0 (fun _ => 0),
        .remember (replicate 16 1) (replicate 32 3) (fun _ => 0), .persist 0 false,
        .copy (replicate 16 1), .remember (replicate 16 4) (replicate 32 5) (fun _ => 0),
        .persist 0 true, .wait 60, .clean, .copy (replicate 16 4)] := by
  refine fresh_of_allowed false 0 fileOfOne received_fileOfOne _ ?_
  refine ⟨rfl, trivial, ?_, ⟨rfl, by decide, by decide, ?_⟩, trivial, rfl,
    ⟨rfl, by decide, by decide, ?_⟩, trivial, trivial, trivial, rfl, trivial⟩
  · intro destHash f hload k hk
    cases hload
    cases hk
  · intro _ k hk
    cases hk
  · intro _ k hk
    cases hk

/-- A file is read, another ratchet is remembered, and the file is put into memory: the old ratchet
is returned. -/
theorem overtaken_load :
    ¬ ∀ (inMemory : Bool) (clock : ℤ) (files : Bytes → Option KnownRatchetFile),
      (∀ k f, files k = some f → f.received ≤ clock) → ∀ es : List RatchetEvent,
        Run.Always step Fresh (init inMemory clock files) es := by
  intro h
  have hlast := (h false 0 fileOfOne received_fileOfOne
    [.copy (replicate 16 1), .read 0,
      .remember (replicate 16 1) (replicate 32 3) (fun _ => 0),
      .store 0 (fun _ => 0)]).last
  have hold := hlast (replicate 16 1, replicate 32 2, some (replicate 32 3))
  revert hold
  decide

end KnownRatchets

end Reticulum

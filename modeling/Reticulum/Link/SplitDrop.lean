import Mathlib.Algebra.BigOperators.Group.List.Basic
import Reticulum.Link.LifeCycle
import Reticulum.Link.SplitAssembly

/-!
# Closing a link and the split resources of other links

The assemblies of all links are in one map, whose keys are texts: the link in hexadecimal, a colon,
and the hash of the resource.  A link that is closed drops the assemblies whose key begins with its
own identity and a colon (`pkg/link/split_resource.go`).

An identity is no owner.  `Reestablish` takes it from the link; a link without one looks for the
keys that begin with nothing, and drops all of them; and the files are looked for under a name
without the link.  There is nothing else: **`SplitWorld.drop_exact_iff`**.
-/

namespace Reticulum

open List SplitStore Table

/-! ## Keys as texts -/

namespace SplitKey

def text (key : SplitKey) : List Char := Bytes.hex key.linkID ++ ':' :: Bytes.hex key.originalHash

def dropText (linkID : Bytes) : List Char := if linkID = [] then [] else Bytes.hex linkID ++ [':']

/-- **The keys that are found** are those of the link, or all of them. -/
lemma dropText_isPrefix_iff (linkID : Bytes) (key : SplitKey) :
    dropText linkID <+: key.text ↔ linkID = [] ∨ key.linkID = linkID := by
  rw [dropText]
  split_ifs with h
  · simp [h]
  · rw [text, Bytes.hex_colon_isPrefix_iff]
    simp [h, eq_comm]

end SplitKey

namespace SplitStore

variable {s s' : SplitStore} {key : SplitKey}

/-! ## What is to hold -/

def reserved (s : SplitStore) (key : SplitKey) : ℕ :=
  ((s.mem.lookup key).getD []).length + ((s.metaMem.lookup key).getD []).length

def files (key : SplitKey) : List StagePath := [resourceStoragePath key, metaPath key]

/-- `dropSplitAssemblies` of a link with the assemblies `own`, if the file system can remove what it
is asked to, drops them with all that belongs to them, and leaves everything else.  Metadata of no
bytes is as good as none. -/
structure DropsExactly (s : SplitStore) (linkID : Bytes) (own : List SplitKey) : Prop where
  assemblies : ∀ key, (s.dropSplitAssemblies linkID fun _ => true).assemblies.lookup key =
    if key ∈ own then none else s.assemblies.lookup key
  buffers : ∀ key, (s.dropSplitAssemblies linkID fun _ => true).mem.lookup key =
    if key ∈ own then none else s.mem.lookup key
  metadata : ∀ key, ((s.dropSplitAssemblies linkID fun _ => true).metaMem.lookup key).getD [] =
    if key ∈ own then [] else (s.metaMem.lookup key).getD []
  files : ∀ key, ∀ path ∈ files key,
    (s.dropSplitAssemblies linkID fun _ => true).disk.lookup path =
      if key ∈ own then none else s.disk.lookup path
  budget : (s.dropSplitAssemblies linkID fun _ => true).budget.used =
    s.budget.used - (own.map s.reserved).sum

/-! ## The budget -/

def Balanced (s : SplitStore) : Prop :=
  s.budget.used = (total length s.mem + total length s.metaMem : ℕ)

lemma balanced_empty : Balanced empty := rfl

lemma Balanced.of_memory (h : Balanced s) (hbudget : s'.budget.used = s.budget.used)
    (hmem : s'.mem = s.mem) (hmeta : s'.metaMem = s.metaMem) : Balanced s' := by
  rw [Balanced, hbudget, hmem, hmeta]
  exact h

lemma used_release {b : MemoryBudget} {n : ℕ} (h : (n : ℤ) ≤ b.used) :
    (b.release n).used = b.used - n := by
  rw [MemoryBudget.release]
  split_ifs with hn
  · omega
  · exact max_eq_left (by omega)

lemma used_tryReserve {b b' : MemoryBudget} {n : ℕ} (h : b.tryReserve n = .ok b') :
    b'.used = b.used + n := by
  rw [MemoryBudget.tryReserve] at h
  split_ifs at h with hn
  · cases h
    omega
  · cases h
    rfl

section

variable (h : Balanced s) {data : Bytes}
include h

lemma Balanced.length_mem_le
    (hdata : s.mem.lookup key = some data) : (data.length : ℤ) ≤ s.budget.used := by
  have htotal := total_erase length hdata
  rw [h]
  omega

lemma Balanced.length_meta_le {packed : Bytes}
    (hpacked : s.metaMem.lookup key = some packed) : (packed.length : ℤ) ≤ s.budget.used := by
  have htotal := total_erase length hpacked
  rw [h]
  omega

lemma Balanced.erase_mem (hdata : s.mem.lookup key = some data) :
    Balanced { s with budget := s.budget.release data.length, mem := s.mem.erase key } := by
  have htotal := total_erase length hdata
  simp only [Balanced, used_release (h.length_mem_le hdata)]
  rw [Balanced] at h
  omega

lemma Balanced.clear_mem (hdata : s.mem.lookup key = some data) :
    Balanced { s with budget := s.budget.release data.length, mem := s.mem.insert key [] } := by
  have htotal := total_erase length hdata
  simp only [Balanced, used_release (h.length_mem_le hdata), total_insert, length_nil]
  rw [Balanced] at h
  omega

lemma Balanced.erase_meta {packed : Bytes} (hpacked : s.metaMem.lookup key = some packed) :
    Balanced { s with
      budget := s.budget.release packed.length, metaMem := s.metaMem.erase key } := by
  have htotal := total_erase length hpacked
  simp only [Balanced, used_release (h.length_meta_le hpacked)]
  rw [Balanced] at h
  omega

lemma Balanced.discardInMemory (key : SplitKey) : Balanced (s.discardInMemory key) := by
  rw [SplitStore.discardInMemory]
  cases hdata : s.mem.lookup key with
  | none =>
    cases hprev : s.metaMem.lookup key with
    | none =>
      exact h
    | some prev =>
      exact h.erase_meta hprev
  | some data =>
    have hclear := h.clear_mem hdata
    cases hprev : s.metaMem.lookup key with
    | none =>
      exact hclear
    | some prev =>
      exact hclear.erase_meta hprev

lemma Balanced.keepMetadata (key : SplitKey) (packed : Bytes) :
    Balanced (s.keepMetadata key packed).1 := by
  rw [SplitStore.keepMetadata]
  cases hreserve : s.budget.tryReserve packed.length with
  | error err => exact h
  | ok budget =>
    have hused := used_tryReserve hreserve
    rw [Balanced] at h
    cases hprev : s.metaMem.lookup key with
    | none =>
      have htotal := total_erase_of_none length hprev
      simp only [Balanced, total_insert]
      omega
    | some prev =>
      have htotal := total_erase length hprev
      have hrelease := used_release (b := budget) (n := prev.length) (by omega)
      simp only [Balanced, total_insert]
      omega

lemma Balanced.appendInMemory (key : SplitKey) (fileBytes : Bytes) :
    Balanced (s.appendInMemory key fileBytes).1 := by
  rw [SplitStore.appendInMemory]
  cases hreserve : s.budget.tryReserve fileBytes.length with
  | error err => exact h
  | ok budget =>
    have hused := used_tryReserve hreserve
    rw [Balanced] at h
    cases hdata : s.mem.lookup key with
    | none =>
      have htotal := total_erase_of_none length hdata
      simp only [Balanced, total_insert, Option.getD_none, nil_append]
      omega
    | some data =>
      have htotal := total_erase length hdata
      simp only [Balanced, total_insert, Option.getD_some, length_append]
      omega

lemma Balanced.stageInMemory (limit : ℤ) (key : SplitKey) (payload : Bytes)
    (adv : ResourceAdvertisement) : Balanced (s.stageInMemory limit key payload adv).1 := by
  rw [SplitStore.stageInMemory]
  have hlimit : Balanced { s with budget := s.budget.setLimit limit } := h.of_memory rfl rfl rfl
  generalize hs₁ : (if adv.segmentIndex = 1 then
    ({ s with budget := s.budget.setLimit limit } : SplitStore).discardInMemory key
    else { s with budget := s.budget.setLimit limit }) = s₁
  have h₁ : Balanced s₁ := by
    rw [← hs₁]
    split_ifs
    · exact hlimit.discardInMemory key
    · exact hlimit
  split_ifs
  · cases segmentMetadata payload with
    | error err => exact h₁
    | ok split =>
      have h₂ := h₁.keepMetadata key split.1
      simp only
      generalize s₁.keepMetadata key split.1 = r at h₂
      obtain ⟨s₂, _ | _⟩ := r
      · exact h₂
      · exact h₂.appendInMemory key split.2
  · exact h₁.appendInMemory key payload

end

def SameMemory (s s' : SplitStore) : Prop :=
  s'.budget = s.budget ∧ s'.mem = s.mem ∧ s'.metaMem = s.metaMem

lemma SameMemory.balanced (h : SameMemory s s') (hs : Balanced s) : Balanced s' :=
  hs.of_memory (by rw [h.1]) h.2.1 h.2.2

lemma SameMemory.trans {s'' : SplitStore} (h : SameMemory s s') (h' : SameMemory s' s'') :
    SameMemory s s'' :=
  ⟨h'.1.trans h.1, h'.2.1.trans h.2.1, h'.2.2.trans h.2.2⟩

lemma sameMemory_remove (s : SplitStore) (io : DiskAnswers) (path : StagePath) :
    SameMemory s (s.remove io path) := by
  rw [remove]
  split_ifs
  · exact ⟨rfl, rfl, rfl⟩
  · exact ⟨rfl, rfl, rfl⟩

lemma sameMemory_writeMetaFile (s : SplitStore) (io : DiskAnswers) (key : SplitKey)
    (packed : Bytes) : SameMemory s (s.writeMetaFile io key packed).1 := by
  rw [writeMetaFile]
  rcases io.writeMeta with _ | ⟨err, _ | left⟩
  · exact ⟨rfl, rfl, rfl⟩
  · exact ⟨rfl, rfl, rfl⟩
  · exact ⟨rfl, rfl, rfl⟩

lemma sameMemory_writeFile (s : SplitStore) (io : DiskAnswers) (key : SplitKey) (truncate : Bool)
    (fileBytes : Bytes) : SameMemory s (s.writeFile io key truncate fileBytes).1 := by
  rw [writeFile]
  cases io.openFile with
  | some err => exact ⟨rfl, rfl, rfl⟩
  | none =>
    cases io.write with
    | some failed | none => exact ⟨rfl, rfl, rfl⟩

lemma sameMemory_stageOnDisk (io : DiskAnswers) (s : SplitStore) (key : SplitKey) (payload : Bytes)
    (adv : ResourceAdvertisement) : SameMemory s (s.stageOnDisk io key payload adv).1 := by
  rw [stageOnDisk]
  cases io.mkdir with
  | some err => exact ⟨rfl, rfl, rfl⟩
  | none =>
    generalize hs₁ : (if adv.segmentIndex = 1 then s.remove io (metaPath key) else s) = s₁
    have h₁ : SameMemory s s₁ := by
      rw [← hs₁]
      split_ifs
      · exact sameMemory_remove s io _
      · exact ⟨rfl, rfl, rfl⟩
    split_ifs
    · cases segmentMetadata payload with
      | error err => exact h₁
      | ok split =>
        have h₂ := h₁.trans (sameMemory_writeMetaFile s₁ io key split.1)
        simp only
        generalize s₁.writeMetaFile io key split.1 = r at h₂
        obtain ⟨s₂, _ | _⟩ := r
        · exact h₂
        · exact h₂.trans (sameMemory_writeFile s₂ io key true split.2)
    · exact h₁.trans (sameMemory_writeFile s₁ io key _ payload)

lemma Balanced.stage (h : Balanced s) (c : SegmentCall) : Balanced (s.stage c).1 := by
  rw [SplitStore.stage]
  split_ifs
  · exact h.stageInMemory c.limit c.key c.payload c.adv
  · exact (sameMemory_stageOnDisk c.io s c.key c.payload c.adv).balanced h

lemma Balanced.concludeInMemory (h : Balanced s) (key : SplitKey) :
    Balanced (s.concludeInMemory key).1 := by
  have hmem : total length (s.mem.erase key) + ((s.mem.lookup key).getD []).length =
      total length s.mem := by
    cases hdata : s.mem.lookup key with
    | none => exact total_erase_of_none length hdata
    | some data => exact total_erase length hdata
  have hmeta : total length (s.metaMem.erase key) +
      ((s.metaMem.lookup key).getD []).length = total length s.metaMem := by
    cases hpacked : s.metaMem.lookup key with
    | none => exact total_erase_of_none length hpacked
    | some packed => exact total_erase length hpacked
  rw [Balanced] at h
  have hdata := used_release (b := s.budget) (n := ((s.mem.lookup key).getD []).length) (by omega)
  simp only [Balanced, SplitStore.concludeInMemory, finishSplitAssembly]
  rw [used_release (by omega)]
  omega

lemma sameMemory_concludeOnDisk (s : SplitStore) (io : DiskAnswers) (key : SplitKey) :
    SameMemory s (s.concludeOnDisk io key).1 := by
  rw [concludeOnDisk]
  cases io.readFile with
  | some err => exact ⟨rfl, rfl, rfl⟩
  | none =>
    generalize hs₁ : (if io.readMeta then s.remove io (metaPath key) else s) = s₁
    have h₁ : SameMemory s s₁ := by
      rw [← hs₁]
      split_ifs
      · exact sameMemory_remove s io _
      · exact ⟨rfl, rfl, rfl⟩
    exact h₁.trans (sameMemory_remove s₁ io _)

lemma Balanced.conclude (h : Balanced s) (c : SegmentCall) : Balanced (s.conclude c).1 := by
  rw [SplitStore.conclude]
  split_ifs
  · exact h.concludeInMemory c.key
  · exact (sameMemory_concludeOnDisk s c.io c.key).balanced h

lemma Balanced.stageAndConclude (h : Balanced s) (c : SegmentCall) :
    Balanced (s.stageAndConclude c).1 := by
  have hstage := h.stage c
  rw [SplitStore.stageAndConclude]
  generalize s.stage c = r at hstage
  obtain ⟨s₁, _ | _⟩ := r
  · exact hstage
  · simp only
    split_ifs
    · exact hstage
    · have hconclude := conclude hstage c
      generalize s₁.conclude c = r at hconclude
      obtain ⟨s₂, _ | _⟩ := r
      · exact hconclude
      · exact hconclude

/-- **A segment leaves the budget charged with what is in memory**, whatever becomes of it. -/
lemma Balanced.handle (h : Balanced s) (c : SegmentCall) :
    Balanced (s.handleSplitSegmentComplete c).1 := by
  rw [handleSplitSegmentComplete]
  split_ifs
  · exact h
  obtain ⟨err, hadm⟩ | ⟨asm, err, hadm, -⟩ | ⟨asm, hadm, -, -⟩ :=
    s.admitSplitSegment_cases c.key c.adv c.payload.length
  · rw [hadm]
    exact h
  · rw [hadm]
    exact h.of_memory rfl rfl rfl
  · rw [hadm]
    have hadmitted : Balanced { s with assemblies := s.assemblies.insert c.key asm } :=
      h.of_memory rfl rfl rfl
    exact hadmitted.stageAndConclude c

/-! ## Dropping one assembly -/

lemma metaMem_dropAssembly (io : StagePath → Bool) (s : SplitStore) (key k : SplitKey) :
    ((dropAssembly io s key).metaMem.lookup k).getD [] =
      if k = key then [] else (s.metaMem.lookup k).getD [] := by
  have hmeta : (dropAssembly io s key).metaMem =
      if s.metaMem.lookup key = some [] then s.metaMem else s.metaMem.erase key := by
    simp only [dropAssembly, finishSplitAssembly]
    cases s.mem.lookup key with
    | none | some data =>
      cases hpacked : s.metaMem.lookup key with
      | none => simp [Table.erase_of_not_mem (AList.lookup_eq_none.1 hpacked)]
      | some packed =>
        simp only [Option.some.injEq]
        split_ifs <;> rfl
  rw [hmeta]
  by_cases hk : k = key
  · subst hk
    rw [if_pos rfl]
    split_ifs with hempty
    · simp [hempty]
    · simp
  · split_ifs
    · rfl
    · rw [AList.lookup_erase_ne hk]

lemma reserved_dropAssembly (io : StagePath → Bool) {k : SplitKey} (hk : k ≠ key) :
    (dropAssembly io s key).reserved k = s.reserved k := by
  rw [reserved, reserved, metaMem_dropAssembly, if_neg hk, mem_dropAssembly,
    AList.lookup_erase_ne hk]

/-- **What an assembly had reserved is released**, and the budget stays right. -/
lemma Balanced.dropAssembly (h : Balanced s) (io : StagePath → Bool) (key : SplitKey) :
    Balanced (dropAssembly io s key) ∧
      (dropAssembly io s key).budget.used = s.budget.used - s.reserved key := by
  simp only [SplitStore.dropAssembly, finishSplitAssembly, reserved]
  cases hdata : s.mem.lookup key with
  | none =>
    cases hpacked : s.metaMem.lookup key with
    | none => exact ⟨h.of_memory rfl rfl rfl, by simp⟩
    | some packed =>
      by_cases hempty : packed = []
      · simp only [hempty]
        exact ⟨h.of_memory rfl rfl rfl, by simp⟩
      · simp only [hempty]
        refine ⟨(h.erase_meta hpacked).of_memory rfl rfl rfl, ?_⟩
        simp [used_release (h.length_meta_le hpacked)]
  | some data =>
    have herase := h.erase_mem hdata
    have hused := used_release (h.length_mem_le hdata)
    cases hpacked : s.metaMem.lookup key with
    | none => exact ⟨herase.of_memory rfl rfl rfl, by simp [hused]⟩
    | some packed =>
      by_cases hempty : packed = []
      · simp only [hempty]
        exact ⟨herase.of_memory rfl rfl rfl, by simp [hused]⟩
      · simp only [hempty, if_false]
        refine ⟨(herase.erase_meta hpacked).of_memory rfl rfl rfl, ?_⟩
        have hmeta := used_release (herase.length_meta_le hpacked)
        simp only [Option.getD_some] at hmeta ⊢
        omega

/-! ## Dropping the assemblies of a link -/

def found (s : SplitStore) (linkID : Bytes) : List SplitKey :=
  s.assemblies.keys.filter fun key => linkID = [] ∨ key.linkID = linkID

lemma found_eq_text (s : SplitStore) (linkID : Bytes) :
    s.found linkID =
      s.assemblies.keys.filter fun key => SplitKey.dropText linkID <+: key.text := by
  simp [found, SplitKey.dropText_isPrefix_iff]

lemma dropSplitAssemblies_eq (s : SplitStore) (linkID : Bytes) (io : StagePath → Bool) :
    s.dropSplitAssemblies linkID io = (s.found linkID).foldl (dropAssembly io) s := rfl

structure Dropped (s s' : SplitStore) (keys : List SplitKey) : Prop where
  assemblies : ∀ key, s'.assemblies.lookup key =
    if key ∈ keys then none else s.assemblies.lookup key
  buffers : ∀ key, s'.mem.lookup key = if key ∈ keys then none else s.mem.lookup key
  metadata : ∀ key, (s'.metaMem.lookup key).getD [] =
    if key ∈ keys then [] else (s.metaMem.lookup key).getD []
  disk : ∀ key, ∀ path ∈ files key, s'.disk.lookup path = s.disk.lookup path
  budget : s'.budget.used = s.budget.used - (keys.map s.reserved).sum
  balanced : Balanced s'

lemma lookup_files_dropAssembly (io : StagePath → Bool) (s : SplitStore) (k : SplitKey)
    {path : StagePath} (hpath : path ∈ files key) :
    (dropAssembly io s k).disk.lookup path = s.disk.lookup path := by
  refine disk_dropAssembly ?_ io s k
  simp only [files, mem_cons, not_mem_nil, or_false] at hpath
  obtain rfl | rfl := hpath
  · exact Option.some_ne_none _
  · exact Option.some_ne_none _

lemma Balanced.dropped (h : Balanced s) (io : StagePath → Bool) {keys : List SplitKey}
    (hnodup : keys.Nodup) : Dropped s (keys.foldl (.dropAssembly io) s) keys := by
  induction keys generalizing s with
  | nil => exact ⟨by simp, by simp, by simp, by simp, by simp, h⟩
  | cons k keys ih =>
    obtain ⟨hk, hnodup⟩ := nodup_cons.1 hnodup
    obtain ⟨hbalanced, hused⟩ := h.dropAssembly io k
    have hrest := ih hbalanced hnodup
    refine ⟨?_, ?_, ?_, ?_, ?_, hrest.balanced⟩
    · intro key
      rw [foldl_cons, hrest.assemblies, assemblies_dropAssembly, lookup_erase]
      by_cases hkey : key = k
      · simp [hkey]
      · simp [hkey]
    · intro key
      rw [foldl_cons, hrest.buffers, mem_dropAssembly, lookup_erase]
      by_cases hkey : key = k
      · simp [hkey]
      · simp [hkey]
    · intro key
      rw [foldl_cons, hrest.metadata, metaMem_dropAssembly]
      by_cases hkey : key = k
      · simp [hkey]
      · simp [hkey]
    · intro key path hpath
      rw [foldl_cons, hrest.disk key path hpath, lookup_files_dropAssembly io s k hpath]
    · have hreserved : keys.map (SplitStore.dropAssembly io s k).reserved =
          keys.map s.reserved := by
        refine map_congr_left fun key hkey => reserved_dropAssembly io ?_
        rintro rfl
        exact hk hkey
      rw [foldl_cons, hrest.budget, hreserved, map_cons, sum_cons]
      omega

/-- **When a drop is right**: the assemblies that are found are those that are the link's own, and
there is no file that would have to go. -/
lemma dropsExactly_iff (h : Balanced s) {linkID : Bytes} {own : List SplitKey}
    (hnodup : own.Nodup) (hown : ∀ key ∈ own, key ∈ s.assemblies.keys) :
    s.DropsExactly linkID own ↔
      (∀ key ∈ s.assemblies.keys, (linkID = [] ∨ key.linkID = linkID) ↔ key ∈ own) ∧
        ∀ key ∈ own, ∀ path ∈ files key, s.disk.lookup path = none := by
  have hfound : (s.found linkID).Nodup := s.assemblies.keys_nodup.filter _
  have hmem key : key ∈ s.found linkID ↔
      key ∈ s.assemblies.keys ∧ (linkID = [] ∨ key.linkID = linkID) := by
    simp [found]
  have hdropped := h.dropped (fun _ => true) hfound
  rw [← dropSplitAssemblies_eq] at hdropped
  constructor
  · intro hexact
    refine ⟨fun key hkey => ?_, fun key hkey path hpath => ?_⟩
    · -- a record that is there is gone afterwards if it was found, and if it is the link's own
      have hrecord : s.assemblies.lookup key ≠ none := fun hnone =>
        AList.lookup_eq_none.1 hnone (AList.mem_keys.2 hkey)
      have hboth := (hdropped.assemblies key).symm.trans (hexact.assemblies key)
      rw [← and_iff_right hkey (b := linkID = [] ∨ key.linkID = linkID), ← hmem]
      split_ifs at hboth with hf ho ho
      · exact iff_of_true hf ho
      · exact absurd hboth.symm hrecord
      · exact absurd hboth hrecord
      · exact iff_of_false hf ho
    · rw [← hdropped.disk key path hpath, hexact.files key path hpath, if_pos hkey]
  · rintro ⟨hsame, hfiles⟩
    have hiff key : key ∈ s.found linkID ↔ key ∈ own := by
      rw [hmem]
      exact ⟨fun hkey => (hsame key hkey.1).1 hkey.2,
        fun hkey => ⟨hown key hkey, (hsame key (hown key hkey)).2 hkey⟩⟩
    have hperm : (s.found linkID).Perm own := (perm_ext_iff_of_nodup hfound hnodup).2 hiff
    refine ⟨?_, ?_, ?_, ?_, ?_⟩
    · intro key
      simpa only [hiff] using hdropped.assemblies key
    · intro key
      simpa only [hiff] using hdropped.buffers key
    · intro key
      simpa only [hiff] using hdropped.metadata key
    · intro key path hpath
      rw [hdropped.disk key path hpath]
      split_ifs with hkey
      · exact hfiles key hkey path hpath
      · rfl
    · rw [hdropped.budget, (hperm.map s.reserved).sum_eq]

/-- **Closing a link leaves the budget charged with what is in memory.** -/
lemma Balanced.drop (h : Balanced s) (linkID : Bytes) (io : StagePath → Bool) :
    Balanced (s.dropSplitAssemblies linkID io) :=
  (h.dropped io (s.assemblies.keys_nodup.filter _)).balanced

end SplitStore

/-! ## Links and the store that they share -/

/-- Whether an event of its life closes a link in a way that drops its assemblies: every way does.
-/
def LifeLink.closes (l : LifeLink) (e : LifeEvent) : Bool :=
  decide (l.status ≠ .closed ∧ (l.step e).status = .closed) ||
    -- a failed attempt is marked as closed once more
    match e with
    | .requestSent false => !l.panicked && decide (l.sending ≠ 0) && l.initiator
    | _ => false

structure SplitWorld where
  links : ℕ → LifeLink
  store : SplitStore
  /-- the link that began an assembly -/
  owner : SplitKey → ℕ

inductive SplitWorldEvent where
  | life (n : ℕ) (e : LifeEvent) (removed : StagePath → Bool)
  /-- link `n` completes a segment; the call has the identity that the link has now -/
  | segment (n : ℕ) (c : SegmentCall)

namespace SplitWorld

/-- The calls are taken one after another.  `handleSplitSegmentInMemory` gives the lock back between
its sections; that a link is closed between them is left out. -/
def step (w : SplitWorld) : SplitWorldEvent → SplitWorld
  | .life n e removed =>
    let l := w.links n
    { w with
      links := Function.update w.links n (l.step e)
      store := if l.closes e then w.store.dropSplitAssemblies l.linkID removed else w.store }
  | .segment n c =>
    let c := { c with linkID := (w.links n).linkID }
    { w with
      store := (w.store.handleSplitSegmentComplete c).1
      owner := if (w.store.assemblies.lookup c.key).isNone then Function.update w.owner c.key n
        else w.owner }

def assembliesOf (w : SplitWorld) (n : ℕ) : List SplitKey :=
  w.store.assemblies.keys.filter fun key => w.owner key = n

/-- The identity of a link tells its assemblies from those of others, and they have no files. -/
structure Separate (w : SplitWorld) (n : ℕ) : Prop where
  /-- a link without an identity is alone -/
  identified : (w.links n).linkID = [] → ∀ key ∈ w.store.assemblies.keys, w.owner key = n
  /-- the link has the identity under which it began its assemblies -/
  unchanged : (w.links n).linkID ≠ [] →
    ∀ key ∈ w.assembliesOf n, key.linkID = (w.links n).linkID
  /-- and no other link has begun an assembly under it -/
  unshared : (w.links n).linkID ≠ [] →
    ∀ key ∈ w.store.assemblies.keys, key.linkID = (w.links n).linkID → w.owner key = n
  noFiles : ∀ key ∈ w.assembliesOf n, ∀ path ∈ files key,
    w.store.disk.lookup path = none

lemma mem_assembliesOf {w : SplitWorld} {n : ℕ} {key : SplitKey} :
    key ∈ w.assembliesOf n ↔ key ∈ w.store.assemblies.keys ∧ w.owner key = n := by
  simp [assembliesOf]

lemma balanced_exec {w : SplitWorld} (h : w.store.Balanced) (es : List SplitWorldEvent) :
    (Run.exec step w es).store.Balanced := by
  refine Run.exec_of_step (I := fun w : SplitWorld => w.store.Balanced) ?_ h es
  intro w e h
  cases e with
  | life n e removed =>
    simp only [step]
    split_ifs
    · exact h.drop _ removed
    · exact h
  | segment n c => exact h.handle _

/-- **Closing a link drops its own assemblies and nothing else**, in every state that links and
segments reach, exactly if the link has an identity that tells its assemblies from those of others,
and none of them has a file. -/
theorem drop_exact_iff (links : ℕ → LifeLink) (owner : SplitKey → ℕ) (es : List SplitWorldEvent)
    (n : ℕ) :
    let w := Run.exec step ⟨links, .empty, owner⟩ es
    w.store.DropsExactly (w.links n).linkID (w.assembliesOf n) ↔ w.Separate n := by
  intro w
  have hbalanced : w.store.Balanced := balanced_exec balanced_empty es
  have hnodup : (w.assembliesOf n).Nodup := w.store.assemblies.keys_nodup.filter _
  rw [dropsExactly_iff hbalanced hnodup fun key hkey => (mem_assembliesOf.1 hkey).1]
  constructor
  · rintro ⟨hfound, hfiles⟩
    refine ⟨?_, ?_, ?_, hfiles⟩
    · intro hid key hkey
      exact (mem_assembliesOf.1 ((hfound key hkey).1 (.inl hid))).2
    · intro hid key hkey
      exact ((hfound key (mem_assembliesOf.1 hkey).1).2 hkey).resolve_left hid
    · intro hid key hkey hlink
      exact (mem_assembliesOf.1 ((hfound key hkey).1 (.inr hlink))).2
  · intro h
    refine ⟨fun key hkey => ?_, h.noFiles⟩
    by_cases hid : (w.links n).linkID = []
    · exact iff_of_true (.inl hid) (mem_assembliesOf.2 ⟨hkey, h.identified hid key hkey⟩)
    · constructor
      · rintro (hnone | hlink)
        · exact absurd hnone hid
        · exact mem_assembliesOf.2 ⟨hkey, h.unshared hid key hkey hlink⟩
      · intro hown
        exact .inr (h.unchanged hid key hown)

/-- Link 0 is established and has staged one of two segments; the request of link 1 cannot be sent,
and there is no path when it is established again. -/
def failedReestablish : List SplitWorldEvent :=
  [.life 0 (.establish ⟨0, true, none, .ok [0x42]⟩) fun _ => true,
    .life 0 (.requestSent true) fun _ => true,
    .life 0 (.proof .established) fun _ => true,
    .segment 0 (SplitReceiver.segmentCall true 0 .faultless 1 [1, 2, 3, 4, 5]),
    .life 1 (.establish ⟨0, true, none, .ok [0x43]⟩) fun _ => true,
    .life 1 (.requestSent false) fun _ => true,
    .life 1 (.reestablish ⟨0, false, none, .ok [0x44]⟩) fun _ => true]

/-- **A link that could not be established again drops the assemblies of all links** when it is torn
down. -/
theorem failed_reestablish_drops_all :
    let w := Run.exec step ⟨fun _ => .new true true, .empty, fun _ => 0⟩ failedReestablish
    w.assembliesOf 0 = [⟨[0x42], [7]⟩] ∧ w.assembliesOf 1 = [] ∧ w.store.budget.used = 5 ∧
      (w.step (.life 1 .teardown fun _ => true)).assembliesOf 0 = [] ∧
      (w.step (.life 1 .teardown fun _ => true)).store.budget.used = 0 ∧
      ¬ w.store.DropsExactly (w.links 1).linkID (w.assembliesOf 1) := by
  intro w
  have hnone : w.assembliesOf 1 = [] := by decide +kernel
  have hused : w.store.budget.used = 5 := by decide +kernel
  refine ⟨by decide +kernel, hnone, hused, by decide +kernel, by decide +kernel, fun h => ?_⟩
  have hbudget := h.budget
  revert hbudget
  decide +kernel

end SplitWorld

end Reticulum

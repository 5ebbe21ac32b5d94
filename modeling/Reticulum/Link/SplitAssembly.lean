import Reticulum.Core.Run
import Reticulum.Link.SplitResource

/-!
# Split resources arrive whole or not at all

The segments of one split resource are presented to the receiver in any order and any number of
times; some of them cannot be staged.  Whatever is delivered should be the whole file
(`AllOrNothing`).  But a segment counts as received before it is staged; if it then cannot be staged
the next one is appended all the same (`skippingRun_torn`).  This is the only way:
**`allOrNothing_of_stages`**.
-/

namespace Reticulum

open List AList SplitStore

/-! ## The resource and its file -/

structure SplitResource where
  segments : List Bytes
  hasMetadata : Bool
  length_lt : segments.length < 2 ^ 16

variable {fileBytes : Bytes} {res : SplitResource} {packed : Bytes}

namespace SplitResource

def strip (hasMetadata : Bool) (payload : Bytes) : Except String Bytes :=
  if hasMetadata then (segmentMetadata payload).map Prod.snd else .ok payload

def filePrefix (res : SplitResource) (j : ℕ) : Except String Bytes :=
  strip res.hasMetadata (res.segments.take j).flatten

def file (res : SplitResource) : Except String Bytes := strip res.hasMetadata res.segments.flatten

lemma filePrefix_length (res : SplitResource) : res.filePrefix res.segments.length = res.file := by
  rw [filePrefix, take_length, file]

variable {payload : Bytes}

lemma segmentMetadata_append
    (h : segmentMetadata payload = .ok (packed, fileBytes)) (more : Bytes) :
    segmentMetadata (payload ++ more) = .ok (packed, fileBytes ++ more) := by
  match payload, h with
  | b₀ :: b₁ :: b₂ :: rest, h =>
    simp only [segmentMetadata, cons_append] at h ⊢
    split_ifs at h with hshort
    obtain ⟨rfl, rfl⟩ := Prod.mk.inj (Except.ok.inj h)
    rw [if_neg (by rw [length_append]; omega), take_append_of_le_length (by omega),
      drop_append_of_le_length (by omega)]

lemma strip_append {hasMetadata : Bool} (h : strip hasMetadata payload = .ok fileBytes)
    (more : Bytes) : strip hasMetadata (payload ++ more) = .ok (fileBytes ++ more) := by
  rw [strip] at h ⊢
  split_ifs at h ⊢
  · cases hm : segmentMetadata payload with
    | error err =>
      rw [hm] at h
      cases h
    | ok split =>
      rw [hm] at h
      rw [segmentMetadata_append hm, ← Except.ok.inj h]
      rfl
  · rw [← Except.ok.inj h]

lemma filePrefix_succ {j : ℕ} {staged : Bytes}
    (h : res.filePrefix j = .ok staged) (hpayload : res.segments[j]? = some payload) :
    res.filePrefix (j + 1) = .ok (staged ++ payload) := by
  rw [filePrefix, take_add_one, hpayload]
  simpa using strip_append h payload

lemma filePrefix_one (hpayload : res.segments[0]? = some payload) :
    res.filePrefix 1 = strip res.hasMetadata payload := by
  rw [filePrefix, take_add_one, hpayload]
  simp

end SplitResource

open SplitResource

namespace SplitStore

variable {s : SplitStore} {key : SplitKey} {c : SegmentCall} {s' : SplitStore}
  {adv : ResourceAdvertisement} {payload : Bytes} {k : SplitKey} {asm : SplitAsm}

/-! ## What staging does -/

def staged (s : SplitStore) (inMemory : Bool) (key : SplitKey) : Bytes :=
  if inMemory then (s.mem.lookup key).getD [] else (s.disk.lookup (resourceStoragePath key)).getD []

structure Private (s s' : SplitStore) (key : SplitKey) : Prop where
  assemblies : s'.assemblies = s.assemblies
  staged : ∀ k ≠ key, ∀ inMemory, s'.staged inMemory k = s.staged inMemory k

lemma Private.trans {s'' : SplitStore} (h : Private s s' key) (h' : Private s' s'' key) :
    Private s s'' key :=
  ⟨h'.assemblies.trans h.assemblies, fun k hk m => (h'.staged k hk m).trans (h.staged k hk m)⟩

/-- What the staging of a segment has done: if it succeeded, the file bytes of the segment are
staged behind what was there, or alone if it is the first one. -/
structure Stages (s : SplitStore) (inMemory : Bool) (key : SplitKey) (payload : Bytes)
    (adv : ResourceAdvertisement) (r : SplitStore × Except String Unit) : Prop where
  isPrivate : Private s r.1 key
  staged_ok : r.2 = .ok () → ∃ fileBytes,
    strip (adv.hasMetadata && decide (adv.segmentIndex = 1)) payload = .ok fileBytes ∧
      r.1.staged inMemory key =
        (if adv.segmentIndex = 1 then [] else s.staged inMemory key) ++ fileBytes

lemma staged_memory (s : SplitStore) (key : SplitKey) :
    s.staged true key = (s.mem.lookup key).getD [] := rfl

lemma staged_disk (s : SplitStore) (key : SplitKey) :
    s.staged false key = (s.disk.lookup (resourceStoragePath key)).getD [] := rfl

lemma Private.of_lookup (hassemblies : s'.assemblies = s.assemblies)
    (hmem : ∀ k ≠ key, s'.mem.lookup k = s.mem.lookup k)
    (hdisk : ∀ k ≠ key,
      s'.disk.lookup (resourceStoragePath k) = s.disk.lookup (resourceStoragePath k)) :
    Private s s' key := by
  refine ⟨hassemblies, ?_⟩
  intro k hk m
  cases m with
  | true => rw [staged_memory, staged_memory, hmem k hk]
  | false => rw [staged_disk, staged_disk, hdisk k hk]

/-- The store is the same but for its budget, or for what it has besides. -/
lemma Private.of_same (hassemblies : s'.assemblies = s.assemblies) (hmem : s'.mem = s.mem)
    (hdisk : s'.disk = s.disk) : Private s s' key :=
  .of_lookup hassemblies (fun _ _ => by rw [hmem]) fun _ _ => by rw [hdisk]

/-! ### In memory -/

lemma discardInMemory_spec (s : SplitStore) (key : SplitKey) :
    Private s (s.discardInMemory key) key ∧ (s.discardInMemory key).staged true key = [] := by
  rw [discardInMemory]
  cases hmem : s.mem.lookup key with
  | some data =>
    have hstaged : ((s.mem.insert key []).lookup key).getD [] = [] := by simp
    cases s.metaMem.lookup key with
    | some prev | none =>
      exact ⟨.of_lookup rfl (fun k hk => lookup_insert_ne hk) fun _ _ => rfl, hstaged⟩
  | none =>
    have hstaged : (s.mem.lookup key).getD [] = [] := by simp [hmem]
    cases s.metaMem.lookup key with
    | some prev | none => exact ⟨.of_same rfl rfl rfl, hstaged⟩

lemma keepMetadata_spec (s : SplitStore) (key : SplitKey) (packed : Bytes) :
    Private s (s.keepMetadata key packed).1 key ∧
      (s.keepMetadata key packed).1.staged true key = s.staged true key := by
  rw [keepMetadata]
  cases s.budget.tryReserve packed.length with
  | error err | ok budget => exact ⟨.of_same rfl rfl rfl, rfl⟩

lemma appendInMemory_spec (s : SplitStore) (key : SplitKey) (fileBytes : Bytes) :
    Private s (s.appendInMemory key fileBytes).1 key ∧
      ((s.appendInMemory key fileBytes).2 = .ok () →
        (s.appendInMemory key fileBytes).1.staged true key = s.staged true key ++ fileBytes) := by
  rw [appendInMemory]
  cases s.budget.tryReserve fileBytes.length with
  | error err => exact ⟨.of_same rfl rfl rfl, fun h => by cases h⟩
  | ok budget =>
    refine ⟨.of_lookup rfl (fun k hk => lookup_insert_ne hk) fun _ _ => rfl, ?_⟩
    simp [staged_memory]

lemma Stages.of_error {inMemory : Bool} {err : String} (h : Private s s' key) :
    Stages s inMemory key payload adv (s', .error err) :=
  ⟨h, fun hok => by cases hok⟩

lemma stageInMemory_spec (limit : ℤ) (s : SplitStore) (key : SplitKey) (payload : Bytes)
    (adv : ResourceAdvertisement) :
    Stages s true key payload adv (s.stageInMemory limit key payload adv) := by
  rw [stageInMemory]
  -- the store when the segment is staged
  generalize hs₁ : (if adv.segmentIndex = 1 then
    ({ s with budget := s.budget.setLimit limit } : SplitStore).discardInMemory key
    else { s with budget := s.budget.setLimit limit }) = s₁
  have hlimit : Private s { s with budget := s.budget.setLimit limit } key :=
    .of_same rfl rfl rfl
  have hprivate : Private s s₁ key := by
    rw [← hs₁]
    split_ifs
    · exact hlimit.trans (discardInMemory_spec _ key).1
    · exact hlimit
  have hstaged : s₁.staged true key = if adv.segmentIndex = 1 then [] else s.staged true key := by
    rw [← hs₁]
    split_ifs
    · exact (discardInMemory_spec _ key).2
    · rfl
  by_cases hmeta : adv.hasMetadata ∧ adv.segmentIndex = 1
  · rw [if_pos hmeta]
    cases hsplit : segmentMetadata payload with
    | error err => exact .of_error hprivate
    | ok split =>
      obtain ⟨packed, fileBytes⟩ := split
      obtain ⟨hkeep, hkept⟩ := keepMetadata_spec s₁ key packed
      simp only
      generalize s₁.keepMetadata key packed = r at hkeep hkept
      obtain ⟨s₂, _ | _⟩ := r
      · exact .of_error (hprivate.trans hkeep)
      · obtain ⟨happend, happended⟩ := appendInMemory_spec s₂ key fileBytes
        refine ⟨(hprivate.trans hkeep).trans happend, fun hok => ⟨fileBytes, ?_, ?_⟩⟩
        · simp [strip, hmeta, hsplit, Except.map]
        · rw [happended hok, hkept, hstaged]
  · rw [if_neg hmeta]
    obtain ⟨happend, happended⟩ := appendInMemory_spec s₁ key payload
    refine ⟨hprivate.trans happend, fun hok => ⟨payload, ?_, ?_⟩⟩
    · rw [strip, if_neg (by simpa using hmeta)]
    · rw [happended hok, hstaged]

/-! ### On disk -/

lemma resourceStoragePath_ne {k' : SplitKey} (h : k ≠ k') :
    resourceStoragePath k ≠ resourceStoragePath k' := by
  cases k
  cases k'
  simp_all [resourceStoragePath]

lemma resourceStoragePath_ne_metaPath (k k' : SplitKey) : resourceStoragePath k ≠ metaPath k' := by
  simp [resourceStoragePath, metaPath]

lemma staged_remove {path : StagePath} (h : resourceStoragePath k ≠ path) (s : SplitStore)
    (io : DiskAnswers) (inMemory : Bool) :
    (s.remove io path).staged inMemory k = s.staged inMemory k := by
  rw [remove]
  split_ifs
  · cases inMemory with
    | true => rfl
    | false => rw [staged_disk, staged_disk, lookup_erase_ne h]
  · rfl

section

variable (s : SplitStore) (io : DiskAnswers)

lemma assemblies_remove (path : StagePath) : (s.remove io path).assemblies = s.assemblies := by
  rw [remove]
  split_ifs <;> rfl

lemma private_remove_metaPath (key : SplitKey) : Private s (s.remove io (metaPath key)) key :=
  ⟨assemblies_remove s io _, fun k _ m =>
    staged_remove (resourceStoragePath_ne_metaPath k key) s io m⟩

lemma writeMetaFile_spec (key : SplitKey) (packed : Bytes) :
    Private s (s.writeMetaFile io key packed).1 key := by
  have hne k := resourceStoragePath_ne_metaPath k key
  rw [writeMetaFile]
  match io.writeMeta with
  | some (err, some left) =>
    exact .of_lookup rfl (fun _ _ => rfl) fun k _ => lookup_insert_ne (hne k)
  | some (err, none) => exact .of_lookup rfl (fun _ _ => rfl) fun k _ => lookup_erase_ne (hne k)
  | none => exact .of_lookup rfl (fun _ _ => rfl) fun k _ => lookup_insert_ne (hne k)

lemma writeFile_spec (key : SplitKey) (truncate : Bool) (fileBytes : Bytes) :
    Private s (s.writeFile io key truncate fileBytes).1 key ∧
      ((s.writeFile io key truncate fileBytes).2 = .ok () →
        (s.writeFile io key truncate fileBytes).1.staged false key =
          (if truncate then [] else s.staged false key) ++ fileBytes) := by
  rw [writeFile]
  match io.openFile, io.write with
  | some err, _ => exact ⟨.of_same rfl rfl rfl, fun h => by cases h⟩
  | none, some (err, n) =>
    refine ⟨.of_lookup rfl (fun _ _ => rfl) fun k hk => ?_, fun h => by cases h⟩
    exact lookup_insert_ne (resourceStoragePath_ne hk)
  | none, none =>
    refine ⟨.of_lookup rfl (fun _ _ => rfl) fun k hk => ?_, fun _ => ?_⟩
    · exact lookup_insert_ne (resourceStoragePath_ne hk)
    · simp [staged_disk]

lemma stageOnDisk_spec (s : SplitStore) (key : SplitKey) (payload : Bytes)
    (adv : ResourceAdvertisement) :
    Stages s false key payload adv (s.stageOnDisk io key payload adv) := by
  rw [stageOnDisk]
  cases io.mkdir with
  | some err => exact .of_error (.of_same rfl rfl rfl)
  | none =>
    generalize hs₁ : (if adv.segmentIndex = 1 then s.remove io (metaPath key) else s) = s₁
    have hprivate : Private s s₁ key := by
      rw [← hs₁]
      split_ifs
      · exact private_remove_metaPath s io key
      · exact .of_same rfl rfl rfl
    have hstaged : s₁.staged false key = s.staged false key := by
      rw [← hs₁]
      split_ifs
      · exact staged_remove (resourceStoragePath_ne_metaPath key key) s io false
      · rfl
    by_cases hmeta : adv.hasMetadata ∧ adv.segmentIndex = 1
    · rw [if_pos hmeta]
      cases hsplit : segmentMetadata payload with
      | error err => exact .of_error hprivate
      | ok split =>
        obtain ⟨packed, fileBytes⟩ := split
        have hkeep := writeMetaFile_spec s₁ io key packed
        simp only
        generalize s₁.writeMetaFile io key packed = r at hkeep
        obtain ⟨s₂, _ | _⟩ := r
        · exact .of_error (hprivate.trans hkeep)
        · obtain ⟨hwrite, hwritten⟩ := writeFile_spec s₂ io key true fileBytes
          refine ⟨(hprivate.trans hkeep).trans hwrite, fun hok => ⟨fileBytes, ?_, ?_⟩⟩
          · simp [strip, hmeta, hsplit, Except.map]
          · simp [hwritten hok, hmeta]
    · rw [if_neg hmeta]
      obtain ⟨hwrite, hwritten⟩ :=
        writeFile_spec s₁ io key (decide (adv.segmentIndex = 1)) payload
      refine ⟨hprivate.trans hwrite, fun hok => ⟨payload, ?_, ?_⟩⟩
      · rw [strip, if_neg (by simpa using hmeta)]
      · simp [hwritten hok, hstaged]

lemma stage_spec (c : SegmentCall) : Stages s c.inMemory c.key c.payload c.adv (s.stage c) := by
  rw [stage]
  split_ifs with h
  · rw [h]
    exact stageInMemory_spec c.limit s c.key c.payload c.adv
  · rw [Bool.not_eq_true] at h
    rw [h]
    exact stageOnDisk_spec c.io s c.key c.payload c.adv

/-! ## When a segment can be staged -/

def FitsBudget (c : SegmentCall) : Prop :=
  c.limit ≤ 0 ∨
    (if c.adv.segmentIndex = 1 then s.discardInMemory c.key else s).budget.used +
      c.payload.length ≤ c.limit

end

structure DiskAnswers.Writes (io : DiskAnswers) : Prop where
  mkdir : io.mkdir = none
  writeMeta : io.writeMeta = none
  openFile : io.openFile = none
  write : io.write = none

/-- The segment of a call can be staged: its metadata can be read, and there is room for it. -/
structure CanStage (s : SplitStore) (c : SegmentCall) : Prop where
  metadata : c.adv.hasMetadata = true → c.adv.segmentIndex = 1 →
    (segmentMetadata c.payload).isOk = true
  memory : c.inMemory = true → FitsBudget s c
  disk : c.inMemory = false → c.io.Writes

lemma tryReserve_ok {b : MemoryBudget} {n : ℕ} (h : b.limit ≤ 0 ∨ b.used + n ≤ b.limit) :
    b.tryReserve n = .ok { b with used := b.used + n } := by
  rw [MemoryBudget.tryReserve]
  by_cases hn : (n : ℤ) ≤ 0
  · obtain rfl : n = 0 := by omega
    simp
  · rw [if_neg hn, if_neg (by omega)]

lemma length_segmentMetadata (h : segmentMetadata payload = .ok (packed, fileBytes)) :
    packed.length + fileBytes.length ≤ payload.length := by
  match payload, h with
  | b₀ :: b₁ :: b₂ :: rest, h =>
    simp only [segmentMetadata] at h
    split_ifs at h
    obtain ⟨rfl, rfl⟩ := Prod.mk.inj (Except.ok.inj h)
    simp only [length_take, length_drop, length_cons]
    omega

lemma appendInMemory_ok
    (h : s.budget.limit ≤ 0 ∨ s.budget.used + fileBytes.length ≤ s.budget.limit) :
    (s.appendInMemory key fileBytes).2 = .ok () := by
  rw [appendInMemory, tryReserve_ok h]

lemma release_setLimit (b : MemoryBudget) (limit n : ℤ) :
    (b.setLimit limit).release n = (b.release n).setLimit limit := by
  simp only [MemoryBudget.release]
  split_ifs <;> rfl

lemma discardInMemory_setLimit (s : SplitStore) (key : SplitKey) (limit : ℤ) :
    (({ s with budget := s.budget.setLimit limit } : SplitStore).discardInMemory key).budget =
      (s.discardInMemory key).budget.setLimit limit ∧
    (({ s with budget := s.budget.setLimit limit } : SplitStore).discardInMemory
      key).metaMem.lookup key = none := by
  simp only [discardInMemory]
  cases s.mem.lookup key with
  | some data =>
    cases hmeta : s.metaMem.lookup key with
    | some prev => simp [release_setLimit]
    | none => simp [hmeta, release_setLimit]
  | none =>
    cases hmeta : s.metaMem.lookup key with
    | some prev => simp [release_setLimit]
    | none => simp [hmeta]

lemma keepMetadata_ok (hnone : s.metaMem.lookup key = none)
    (h : s.budget.limit ≤ 0 ∨ s.budget.used + packed.length ≤ s.budget.limit) :
    ∃ s', s.keepMetadata key packed = (s', .ok ()) ∧
      s'.budget = { s.budget with used := s.budget.used + packed.length } := by
  rw [keepMetadata, tryReserve_ok h]
  simp only [hnone]
  exact ⟨_, rfl, rfl⟩

lemma stageInMemory_ok {limit : ℤ} (hmetadata : adv.hasMetadata → adv.segmentIndex = 1 →
      (segmentMetadata payload).isOk)
    (hfits : limit ≤ 0 ∨ (if adv.segmentIndex = 1 then s.discardInMemory key else s).budget.used +
      payload.length ≤ limit) : (s.stageInMemory limit key payload adv).2 = .ok () := by
  rw [stageInMemory]
  generalize hs₁ : (if adv.segmentIndex = 1 then
    ({ s with budget := s.budget.setLimit limit } : SplitStore).discardInMemory key
    else { s with budget := s.budget.setLimit limit }) = s₁
  obtain ⟨hbudget, hnone⟩ := discardInMemory_setLimit s key limit
  have hroom : s₁.budget.limit ≤ 0 ∨ s₁.budget.used + payload.length ≤ s₁.budget.limit := by
    rw [← hs₁]
    split_ifs at hfits ⊢
    · rw [hbudget]
      exact hfits
    · exact hfits
  by_cases hmeta : adv.hasMetadata ∧ adv.segmentIndex = 1
  · obtain ⟨⟨packed, fileBytes⟩, hsplit⟩ := Fallible.exists_of_isOk (hmetadata hmeta.1 hmeta.2)
    have hlen := length_segmentMetadata hsplit
    rw [if_pos hmeta.2] at hs₁
    have hnone₁ : s₁.metaMem.lookup key = none := hs₁ ▸ hnone
    have hpacked : s₁.budget.limit ≤ 0 ∨ s₁.budget.used + packed.length ≤ s₁.budget.limit := by
      omega
    obtain ⟨s₂, hkeep, hbudget₂⟩ := keepMetadata_ok hnone₁ hpacked
    rw [if_pos hmeta, hsplit]
    simp only [hkeep]
    refine appendInMemory_ok ?_
    rw [hbudget₂]
    simp only
    omega
  · rw [if_neg hmeta]
    exact appendInMemory_ok hroom

lemma stageOnDisk_ok {io : DiskAnswers}
    (hmetadata : adv.hasMetadata → adv.segmentIndex = 1 → (segmentMetadata payload).isOk)
    (hio : io.Writes) : (s.stageOnDisk io key payload adv).2 = .ok () := by
  have hwrite (s' : SplitStore) truncate b :
      (s'.writeFile io key truncate b).2 = .ok () := by
    simp [writeFile, hio.openFile, hio.write]
  rw [stageOnDisk, hio.mkdir]
  by_cases hmeta : adv.hasMetadata ∧ adv.segmentIndex = 1
  · obtain ⟨⟨packed, fileBytes⟩, hsplit⟩ := Fallible.exists_of_isOk (hmetadata hmeta.1 hmeta.2)
    rw [if_pos hmeta, hsplit]
    simp only [writeMetaFile, hio.writeMeta]
    exact hwrite _ _ _
  · rw [if_neg hmeta]
    exact hwrite _ _ _

/-- **A segment that can be staged is staged.** -/
lemma CanStage.stage_ok (h : CanStage s c) : (s.stage c).2 = .ok () := by
  rw [stage]
  split_ifs with hmem
  · exact stageInMemory_ok h.metadata (h.memory hmem)
  · exact stageOnDisk_ok h.metadata (h.disk (Bool.not_eq_true _ ▸ hmem))

lemma CanStage.of_assemblies (h : CanStage s c) (assemblies : Map SplitKey SplitAsm) :
    CanStage { s with assemblies } c := by
  refine { h with memory := fun hmem => ?_ }
  have hfits := h.memory hmem
  rw [FitsBudget] at hfits ⊢
  split_ifs at hfits ⊢
  · have hbudget : ({ s with assemblies }.discardInMemory
        c.key).budget = (s.discardInMemory c.key).budget := by
      simp only [discardInMemory]
      cases s.mem.lookup c.key <;> cases s.metaMem.lookup c.key <;> rfl
    rw [hbudget]
    exact hfits
  · exact hfits

/-! ## Admission and conclusion -/

lemma findAssembly_ok (h : s.findAssembly key adv = .ok asm) :
    (adv.segmentIndex = 1 ∧ asm.nextIndex = 1) ∨ s.assemblies.lookup key = some asm := by
  rw [findAssembly] at h
  cases hlookup : s.assemblies.lookup key with
  | some asm₀ =>
    rw [hlookup] at h
    simp only [Except.ok.injEq] at h
    split_ifs at h with hfirst
    · exact .inl ⟨hfirst, by rw [← h]; rfl⟩
    · exact .inr (by rw [h])
  | none =>
    rw [hlookup] at h
    simp only at h
    split_ifs at h with htotal hlink hfirst
    rw [not_not] at hfirst
    exact .inl ⟨hfirst, by rw [← Except.ok.inj h]; rfl⟩

lemma takeSegment_ok {asm' : SplitAsm} {n : ℕ} (h : asm.takeSegment adv n = .ok asm') :
    adv.segmentIndex = asm.nextIndex ∧ asm'.nextIndex = adv.segmentIndex + 1 := by
  rw [SplitAsm.takeSegment] at h
  split_ifs at h with hindex htotal hlimit
  rw [not_not] at hindex
  refine ⟨hindex, ?_⟩
  rw [← Except.ok.inj h, hindex]

/-- What an admission does to the record of an assembly: it counts the segment that is due, or it
leaves the record alone or at its start. -/
lemma admitSplitSegment_cases (s : SplitStore) (key : SplitKey) (adv : ResourceAdvertisement)
    (n : ℕ) :
    (∃ err, s.admitSplitSegment key adv n = (s, .error err)) ∨
    (∃ asm err, s.admitSplitSegment key adv n =
        ({ s with assemblies := s.assemblies.insert key asm }, .error err) ∧
      (asm.nextIndex = 1 ∨ s.assemblies.lookup key = some asm)) ∨
    (∃ asm, s.admitSplitSegment key adv n =
        ({ s with assemblies := s.assemblies.insert key asm }, .ok ()) ∧
      asm.nextIndex = adv.segmentIndex + 1 ∧
      (adv.segmentIndex = 1 ∨
        ∃ asm₀, s.assemblies.lookup key = some asm₀ ∧ asm₀.nextIndex = adv.segmentIndex)) := by
  rw [admitSplitSegment]
  cases hfind : s.findAssembly key adv with
  | error err => exact .inl ⟨err, rfl⟩
  | ok asm₀ =>
    have hasm₀ := findAssembly_ok hfind
    simp only
    cases hadm : asm₀.takeSegment adv n with
    | error err =>
      refine .inr (.inl ⟨asm₀, err, rfl, ?_⟩)
      exact hasm₀.imp And.right id
    | ok asm =>
      obtain ⟨hindex, hnext⟩ := takeSegment_ok hadm
      refine .inr (.inr ⟨asm, rfl, hnext, ?_⟩)
      exact hasm₀.imp And.left fun h => ⟨asm₀, h, hindex.symm⟩

lemma conclude_spec (s : SplitStore) (c : SegmentCall) :
    (∃ err, s.conclude c = (s, .error err)) ∨
    ∃ s' metaRaw, s.conclude c = (s', .ok (s.staged c.inMemory c.key, metaRaw)) ∧
      s'.assemblies = s.assemblies.erase c.key ∧
      ∀ k ≠ c.key, ∀ inMemory, s'.staged inMemory k = s.staged inMemory k := by
  rw [conclude]
  split_ifs with hmem
  · refine .inr ⟨_, _, by rw [hmem]; rfl, rfl, ?_⟩
    intro k hk m
    cases m with
    | true =>
      exact congrArg (Option.getD · []) (lookup_erase_ne hk)
    | false => rfl
  · rw [Bool.not_eq_true] at hmem
    rw [concludeOnDisk]
    cases c.io.readFile with
    | some err => exact .inl ⟨err, rfl⟩
    | none =>
      refine .inr ⟨_, _, by rw [hmem]; rfl, ?_, fun k hk m => ?_⟩
      · simp only [finishSplitAssembly, assemblies_remove]
        split_ifs
        · rw [assemblies_remove]
        · rfl
      · refine (staged_remove (resourceStoragePath_ne hk) _ c.io m).trans ?_
        split_ifs
        · exact staged_remove (resourceStoragePath_ne_metaPath k c.key) s c.io m
        · rfl

/-! ## The invariant of an assembly -/

structure IsSegmentOf (res : SplitResource) (inMemory : Bool) (c : SegmentCall) : Prop where
  index_pos : 0 < c.adv.segmentIndex.toNat
  payload : res.segments[c.adv.segmentIndex.toNat - 1]? = some c.payload
  totalSegments : c.adv.totalSegments.toNat = res.segments.length
  hasMetadata : c.adv.hasMetadata = res.hasMetadata
  inMemory : c.inMemory = inMemory

def Due (s : SplitStore) (c : SegmentCall) : Prop :=
  c.adv.segmentIndex = 1 ∨
    ∃ asm, s.assemblies.lookup c.key = some asm ∧ asm.nextIndex = c.adv.segmentIndex

/-- The segments that an assembly has counted are the ones it has staged.  Nothing is said when it
waits for the first segment, which discards what is staged, or for none. -/
def InOrder (res : SplitResource) (inMemory : Bool) (key : SplitKey) (s : SplitStore) : Prop :=
  ∀ asm, s.assemblies.lookup key = some asm → asm.nextIndex = 1 ∨
    ∃ j, 0 < j ∧ j ≤ res.segments.length ∧ asm.nextIndex = .ofNat (j + 1) ∧
      (j < res.segments.length → res.filePrefix j = .ok (s.staged inMemory key))

section Invariant

variable {res : SplitResource} {inMemory : Bool} {s' : SplitStore}

lemma InOrder.of_same (h : InOrder res inMemory key s)
    (hlookup : s'.assemblies.lookup key = s.assemblies.lookup key)
    (hstaged : s'.staged inMemory key = s.staged inMemory key) : InOrder res inMemory key s' := by
  intro asm hasm
  rw [hstaged]
  exact h asm (hlookup ▸ hasm)

lemma inOrder_of_none (h : s.assemblies.lookup key = none) : InOrder res inMemory key s := by
  intro asm hasm
  rw [h] at hasm
  cases hasm

lemma toNat_index_le (h : IsSegmentOf res inMemory c) :
    c.adv.segmentIndex.toNat ≤ res.segments.length := by
  have hlt := (List.getElem?_eq_some_iff.1 h.payload).1
  omega

lemma inOrder_of_counted (hseg : IsSegmentOf res inMemory c)
    (hlookup : s.assemblies.lookup key = some asm) (hnext : asm.nextIndex = c.adv.segmentIndex + 1)
    (hstaged : c.adv.segmentIndex.toNat < res.segments.length →
      res.filePrefix c.adv.segmentIndex.toNat = .ok (s.staged inMemory key)) :
    InOrder res inMemory key s := by
  intro asm' hasm'
  obtain rfl : asm = asm' := Option.some.inj (hlookup.symm.trans hasm')
  refine .inr ⟨_, hseg.index_pos, toNat_index_le hseg, ?_, hstaged⟩
  rw [hnext, UInt16.ofNat_add, UInt16.ofNat_toNat]
  rfl

/-- **The file grows by the segment that is due.** -/
lemma InOrder.filePrefix_stage (h : InOrder res inMemory c.key s)
    (hseg : IsSegmentOf res inMemory c) (hdue : Due s c)
    (hstrip : strip (c.adv.hasMetadata && decide (c.adv.segmentIndex = 1)) c.payload =
      .ok fileBytes) :
    res.filePrefix c.adv.segmentIndex.toNat =
      .ok ((if c.adv.segmentIndex = 1 then [] else s.staged inMemory c.key) ++ fileBytes) := by
  by_cases hfirst : c.adv.segmentIndex = 1
  · have hpayload := hseg.payload
    rw [hfirst] at hpayload
    rw [hfirst]
    refine (filePrefix_one hpayload).trans ?_
    simpa [hfirst, hseg.hasMetadata] using hstrip
  · obtain ⟨asm, hasm, hnext⟩ := hdue.resolve_left hfirst
    obtain ⟨j, hj, hjle, hindex, hstaged⟩ := (h asm hasm).resolve_left (hnext ▸ hfirst)
    -- the index of the segment is the one after those that are counted
    have htoNat : c.adv.segmentIndex.toNat = j + 1 := by
      have hpos := hseg.index_pos
      have hlt := res.length_lt
      rw [← hnext, hindex, UInt16.toNat_ofNat'] at hpos ⊢
      omega
    have hbytes : fileBytes = c.payload := by
      rw [decide_eq_false hfirst, Bool.and_false] at hstrip
      exact (Except.ok.inj hstrip).symm
    have hle := toNat_index_le hseg
    have hpayload := hseg.payload
    rw [htoNat] at hpayload hle ⊢
    rw [if_neg hfirst, hbytes]
    exact filePrefix_succ (hstaged (by omega)) hpayload

lemma deliver_eq_some {data metaRaw : Bytes} {d : Delivery} (h : deliver c data metaRaw = some d) :
    d.key = c.key ∧ d.data = data := by
  rw [deliver, Option.map_eq_some_iff] at h
  obtain ⟨recipient, -, rfl⟩ := h
  exact ⟨rfl, rfl⟩

lemma inOrder_after_admission {s₁ : SplitStore}
    (h : InOrder res inMemory c.key s) (hseg : IsSegmentOf res inMemory c) (hdue : Due s c)
    (hsame : s₁.staged inMemory c.key = s.staged inMemory c.key)
    (hlookup : s₁.assemblies.lookup c.key = some asm)
    (hnext : asm.nextIndex = c.adv.segmentIndex + 1)
    (hcan : c.adv.segmentIndex < c.adv.totalSegments → CanStage s₁ c) :
    InOrder res inMemory c.key (s₁.stageAndConclude c).1 ∧
      ∀ d, (s₁.stageAndConclude c).2 = .ok (some d) → res.file = .ok d.data := by
  have hlt : c.adv.segmentIndex < c.adv.totalSegments ↔
      c.adv.segmentIndex.toNat < res.segments.length := by
    rw [UInt16.lt_iff_toNat_lt, hseg.totalSegments]
  obtain ⟨hprivate, hok⟩ := stage_spec s₁ c
  have hstage := fun hlt => (hcan hlt).stage_ok
  rw [stageAndConclude]
  generalize s₁.stage c = r at hprivate hok hstage
  obtain ⟨s₂, result⟩ := r
  have hlookup₂ : s₂.assemblies.lookup c.key = some asm := by
    rw [← hlookup, ← hprivate.assemblies]
  cases result with
  | error err =>
    -- only the last segment can fail to be staged, and nothing is due after it
    refine ⟨inOrder_of_counted hseg hlookup₂ hnext fun hlast => ?_, fun d hd => by cases hd⟩
    cases hstage (hlt.2 hlast)
  | ok _ =>
    obtain ⟨fileBytes, hstrip, hstaged⟩ := hok rfl
    rw [hseg.inMemory, hsame] at hstaged
    have hfront : res.filePrefix c.adv.segmentIndex.toNat = .ok (s₂.staged inMemory c.key) := by
      rw [hstaged]
      exact h.filePrefix_stage hseg hdue hstrip
    have hcounted := inOrder_of_counted hseg hlookup₂ hnext fun _ => hfront
    simp only
    by_cases hmore : c.adv.segmentIndex < c.adv.totalSegments
    · rw [if_pos hmore]
      exact ⟨hcounted, fun d hd => by cases hd⟩
    · rw [if_neg hmore]
      obtain ⟨err, hconclude⟩ | ⟨s₃, metaRaw, hconclude, hassemblies, -⟩ := conclude_spec s₂ c
      · rw [hconclude]
        exact ⟨hcounted, fun d hd => by cases hd⟩
      · rw [hconclude]
        refine ⟨inOrder_of_none ?_, fun d hd => ?_⟩
        · rw [hassemblies]
          exact lookup_erase _ _
        · rw [(deliver_eq_some (Except.ok.inj hd)).2, hseg.inMemory, ← hfront, ← filePrefix_length]
          have hle := toNat_index_le hseg
          rw [hlt] at hmore
          rw [show c.adv.segmentIndex.toNat = res.segments.length by omega]

/-- **A call keeps the order**, and delivers the file if it delivers anything. -/
lemma InOrder.handle (h : InOrder res inMemory c.key s) (hseg : IsSegmentOf res inMemory c)
    (hcan : Due s c → c.adv.segmentIndex < c.adv.totalSegments → CanStage s c) :
    InOrder res inMemory c.key (s.handleSplitSegmentComplete c).1 ∧
      ∀ d, (s.handleSplitSegmentComplete c).2 = .ok (some d) → res.file = .ok d.data := by
  rw [handleSplitSegmentComplete]
  by_cases hhash : c.adv.originalHash = []
  · rw [if_pos hhash]
    exact ⟨h, fun d hd => by cases hd⟩
  rw [if_neg hhash]
  obtain ⟨err, hadm⟩ | ⟨asm, err, hadm, hasm⟩ | ⟨asm, hadm, hnext, hdue⟩ :=
    s.admitSplitSegment_cases c.key c.adv c.payload.length
  · rw [hadm]
    exact ⟨h, fun d hd => by cases hd⟩
  · rw [hadm]
    refine ⟨fun asm' hasm' => ?_, fun d hd => by cases hd⟩
    obtain rfl : asm = asm' := by simpa using hasm'
    exact hasm.elim .inl (h asm)
  · rw [hadm]
    generalize hs₁ : ({ s with assemblies := s.assemblies.insert c.key asm } : SplitStore) = s₁
    have hlookup : s₁.assemblies.lookup c.key = some asm := by
      rw [← hs₁]
      exact lookup_insert _
    have hsame : s₁.staged inMemory c.key = s.staged inMemory c.key := by
      rw [← hs₁]
      rfl
    exact inOrder_after_admission h hseg hdue hsame hlookup hnext fun hlt =>
      hs₁ ▸ (hcan hdue hlt).of_assemblies _

end Invariant

/-! ## Other assemblies, and closing links -/

def KeptOrGone (s s' : SplitStore) (key : SplitKey) : Prop :=
  s'.assemblies.lookup key = none ∨
    (s'.assemblies.lookup key = s.assemblies.lookup key ∧
      ∀ inMemory, s'.staged inMemory key = s.staged inMemory key)

lemma InOrder.of_keptOrGone {inMemory : Bool} (h : InOrder res inMemory key s)
    (hkept : KeptOrGone s s' key) : InOrder res inMemory key s' := by
  obtain hnone | ⟨hlookup, hstaged⟩ := hkept
  · exact inOrder_of_none hnone
  · exact h.of_same hlookup (hstaged inMemory)

lemma KeptOrGone.trans {s'' : SplitStore} (h : KeptOrGone s s' key) (h' : KeptOrGone s' s'' key) :
    KeptOrGone s s'' key := by
  obtain hnone' | ⟨hlookup', hstaged'⟩ := h'
  · exact .inl hnone'
  · obtain hnone | ⟨hlookup, hstaged⟩ := h
    · exact .inl (hlookup'.trans hnone)
    · exact .inr ⟨hlookup'.trans hlookup, fun m => (hstaged' m).trans (hstaged m)⟩

lemma keptOrGone_stageAndConclude (hk : k ≠ c.key) : KeptOrGone s (s.stageAndConclude c).1 k := by
  have hprivate := (stage_spec s c).isPrivate
  rw [stageAndConclude]
  generalize s.stage c = r at hprivate
  obtain ⟨s', _ | _⟩ := r
  all_goals
    have hstaged : KeptOrGone s s' k :=
      .inr ⟨congrArg (AList.lookup k) hprivate.assemblies, hprivate.staged k hk⟩
  · exact hstaged
  · simp only
    split_ifs
    · exact hstaged
    · obtain ⟨err, hconclude⟩ | ⟨s'', metaRaw, hconclude, hassemblies, hother⟩ := conclude_spec s' c
      · rw [hconclude]
        exact hstaged
      · rw [hconclude]
        refine hstaged.trans (.inr ⟨?_, hother k hk⟩)
        rw [hassemblies]
        exact lookup_erase_ne hk

/-- **A call does not touch the assemblies of other keys.** -/
lemma keptOrGone_handle (hk : k ≠ c.key) : KeptOrGone s (s.handleSplitSegmentComplete c).1 k := by
  have hrefl : KeptOrGone s s k := .inr ⟨rfl, fun _ => rfl⟩
  have hinsert asm :
      KeptOrGone s { s with assemblies := s.assemblies.insert c.key asm } k :=
    .inr ⟨lookup_insert_ne hk, fun _ => rfl⟩
  rw [handleSplitSegmentComplete]
  split_ifs
  · exact hrefl
  obtain ⟨err, hadm⟩ | ⟨asm, err, hadm, -⟩ | ⟨asm, hadm, -, -⟩ :=
    s.admitSplitSegment_cases c.key c.adv c.payload.length
  · rw [hadm]
    exact hrefl
  · rw [hadm]
    exact hinsert asm
  · rw [hadm]
    exact (hinsert asm).trans (keptOrGone_stageAndConclude hk)

lemma key_of_delivered {d : Delivery} (h : (s.handleSplitSegmentComplete c).2 = .ok (some d)) :
    d.key = c.key := by
  rw [handleSplitSegmentComplete] at h
  split_ifs at h
  generalize s.admitSplitSegment c.key c.adv c.payload.length = r at h
  obtain ⟨s₁, _ | _⟩ := r
  · cases h
  simp only [stageAndConclude] at h
  generalize s₁.stage c = r at h
  obtain ⟨s₂, _ | _⟩ := r
  · cases h
  simp only at h
  split_ifs at h
  · cases h
  generalize s₂.conclude c = r at h
  obtain ⟨s₃, _ | _⟩ := r
  · cases h
  · exact (deliver_eq_some (Except.ok.inj h)).1

lemma assemblies_dropAssembly (io : StagePath → Bool) (s : SplitStore) (key : SplitKey) :
    (dropAssembly io s key).assemblies = s.assemblies.erase key := by
  simp only [dropAssembly, finishSplitAssembly]
  cases s.mem.lookup key <;> cases s.metaMem.lookup key <;> simp only <;> split_ifs <;> rfl

lemma mem_dropAssembly (io : StagePath → Bool) (s : SplitStore) (key : SplitKey) :
    (dropAssembly io s key).mem = s.mem.erase key := by
  simp only [dropAssembly, finishSplitAssembly]
  cases hmem : s.mem.lookup key with
  | none =>
    rw [Table.erase_of_not_mem (lookup_eq_none.1 hmem)]
    cases s.metaMem.lookup key with
    | none => rfl
    | some packed =>
      simp only
      split_ifs <;> rfl
  | some data =>
    cases s.metaMem.lookup key with
    | none => rfl
    | some packed =>
      simp only
      split_ifs <;> rfl

lemma disk_dropAssembly {path : StagePath} (hlink : path.linkID ≠ none) (io : StagePath → Bool)
    (s : SplitStore) (key : SplitKey) :
    (dropAssembly io s key).disk.lookup path = s.disk.lookup path := by
  have hbare b : path ≠ ⟨none, key.originalHash, b⟩ := by
    rintro rfl
    exact hlink rfl
  have hdisk : ∀ t : SplitStore, t.disk = s.disk →
      (if io ⟨none, key.originalHash, true⟩ then
        (if io ⟨none, key.originalHash, false⟩ then t.disk.erase ⟨none, key.originalHash, false⟩
          else t.disk).erase ⟨none, key.originalHash, true⟩
        else if io ⟨none, key.originalHash, false⟩ then
          t.disk.erase ⟨none, key.originalHash, false⟩ else t.disk).lookup path =
        s.disk.lookup path := by
    intro t ht
    rw [ht]
    split_ifs <;> simp [hbare]
  refine hdisk _ ?_
  simp only [finishSplitAssembly]
  cases s.mem.lookup key <;> cases s.metaMem.lookup key <;> simp only <;> split_ifs <;> rfl

lemma keptOrGone_dropAssembly (io : StagePath → Bool) (s : SplitStore) (k k' : SplitKey) :
    KeptOrGone s (dropAssembly io s k') k := by
  by_cases hk : k = k'
  · refine .inl ?_
    rw [assemblies_dropAssembly, hk]
    exact lookup_erase _ _
  · refine .inr ⟨?_, fun m => ?_⟩
    · rw [assemblies_dropAssembly]
      exact lookup_erase_ne hk
    · cases m with
      | true => rw [staged_memory, staged_memory, mem_dropAssembly, lookup_erase_ne hk]
      | false =>
        rw [staged_disk, staged_disk, disk_dropAssembly (by simp [resourceStoragePath])]

/-- **Closing a link drops assemblies or leaves them as they are.** -/
lemma keptOrGone_drop (s : SplitStore) (linkID : Bytes) (io : StagePath → Bool) (k : SplitKey) :
    KeptOrGone s (s.dropSplitAssemblies linkID io) k := by
  rw [dropSplitAssemblies]
  generalize s.assemblies.keys.filter _ = keys
  induction keys generalizing s with
  | nil => exact .inr ⟨rfl, fun _ => rfl⟩
  | cons k' keys ih => exact (keptOrGone_dropAssembly io s k k').trans (ih _)

end SplitStore

/-! ## Runs -/

inductive SplitEvent where
  | complete (c : SegmentCall)
  | drop (linkID : Bytes) (removed : StagePath → Bool)

structure SplitReceiver where
  store : SplitStore
  delivered : List Delivery

namespace SplitReceiver

def init : SplitReceiver := ⟨.empty, []⟩

def step (s : SplitReceiver) : SplitEvent → SplitReceiver
  | .complete c =>
    match s.store.handleSplitSegmentComplete c with
    | (store, .ok (some d)) => ⟨store, s.delivered ++ [d]⟩
    | (store, _) => ⟨store, s.delivered⟩
  | .drop linkID removed => ⟨s.store.dropSplitAssemblies linkID removed, s.delivered⟩

variable (key : SplitKey) (res : SplitResource) (inMemory : Bool)

/-- **All or nothing**: whatever was delivered for the resource is its whole file. -/
def AllOrNothing (s : SplitReceiver) : Prop :=
  ∀ d ∈ s.delivered, d.key = key → res.file = .ok d.data

def Presents : SplitEvent → Prop
  | .complete c => c.key = key → IsSegmentOf res inMemory c
  | .drop _ _ => True

/-- A segment of the resource that is due can be staged, unless it is the last one. -/
def StagesDue (s : SplitReceiver) : SplitEvent → Prop
  | .complete c => c.key = key → s.store.Due c → c.adv.segmentIndex < c.adv.totalSegments →
    s.store.CanStage c
  | .drop _ _ => True

variable {key res inMemory}

variable (key res inMemory) in
/-- All or nothing so far, and the assembly of the resource in order. -/
structure Inv (s : SplitReceiver) : Prop where
  allOrNothing : AllOrNothing key res s
  inOrder : InOrder res inMemory key s.store

lemma Inv.init : Inv key res inMemory init :=
  ⟨fun _ hd => absurd hd not_mem_nil, inOrder_of_none rfl⟩

lemma Inv.handle {s : SplitReceiver} {c : SegmentCall} (h : Inv key res inMemory s)
    (hpresents : Presents key res inMemory (.complete c))
    (hstages : StagesDue key s (.complete c)) :
    InOrder res inMemory key (s.store.handleSplitSegmentComplete c).1 ∧
      ∀ d, (s.store.handleSplitSegmentComplete c).2 = .ok (some d) → d.key = key →
        res.file = .ok d.data := by
  by_cases hkey : c.key = key
  · subst hkey
    obtain ⟨horder, hfile⟩ := h.inOrder.handle (hpresents rfl) (hstages rfl)
    exact ⟨horder, fun d hd _ => hfile d hd⟩
  · have hother := keptOrGone_handle (s := s.store) (symm hkey)
    refine ⟨h.inOrder.of_keptOrGone hother, ?_⟩
    intro d hd hdkey
    exact absurd ((key_of_delivered hd).symm.trans hdkey) hkey

/-- **Every event keeps the invariant.** -/
lemma Inv.step {s : SplitReceiver} {e : SplitEvent} (h : Inv key res inMemory s)
    (hpresents : Presents key res inMemory e) (hstages : StagesDue key s e) :
    Inv key res inMemory (s.step e) := by
  cases e with
  | drop linkID removed =>
    exact ⟨h.allOrNothing, h.inOrder.of_keptOrGone (s.store.keptOrGone_drop linkID removed key)⟩
  | complete c =>
    obtain ⟨horder, hfile⟩ := h.handle hpresents hstages
    rw [SplitReceiver.step]
    generalize s.store.handleSplitSegmentComplete c = r at horder hfile
    match r with
    | (store, .error err) | (store, .ok none) => exact ⟨h.allOrNothing, horder⟩
    | (store, .ok (some d)) =>
      refine ⟨fun d' hd' hkey => ?_, horder⟩
      obtain hold | hnew := mem_append.1 hd'
      · exact h.allOrNothing d' hold hkey
      · obtain rfl := mem_singleton.1 hnew
        exact hfile d' rfl hkey

/-- **Split resources arrive whole or not at all** in every run in which their segments can be
staged when they are due. -/
theorem allOrNothing_of_stages {es : List SplitEvent} (hes : ∀ e ∈ es, Presents key res inMemory e)
    (hstages : Run.Along step (StagesDue key) init es) :
    Run.Always step (AllOrNothing key res) init es :=
  (Run.always_of_along (I := Inv key res inMemory) (fun _ _ h he => h.step he.1 he.2) .init
    (Run.along_and (Run.along_of_forall hes) hstages)).mono fun _ h => h.allOrNothing

/-! ## Two segments -/

def twoSegments : SplitResource := ⟨[[1, 2, 3, 4, 5], [6]], false, by decide⟩

def twoSegmentsKey : SplitKey := ⟨[0x42], [7]⟩

def segmentCall (inMemory : Bool) (limit : ℤ) (io : DiskAnswers) (index : UInt16)
    (payload : Bytes) : SegmentCall where
  linkID := [0x42]
  inMemory
  limit
  hasCallback := true
  payload
  adv := { ResourceAdvertisement.plain 0 0 [] [] with
    originalHash := [7], split := true, segmentIndex := index, totalSegments := 2 }
  isRequest := false
  hasPending := false
  io

lemma isSegmentOf_segmentCall (inMemory : Bool) (limit : ℤ) (io : DiskAnswers) {index : UInt16}
    {payload : Bytes} (h : 0 < index.toNat ∧
      twoSegments.segments[index.toNat - 1]? = some payload) :
    IsSegmentOf twoSegments inMemory (segmentCall inMemory limit io index payload) :=
  ⟨h.1, h.2, rfl, rfl, rfl⟩

def wholeRun : List SplitEvent :=
  [.complete (segmentCall true 0 .faultless 1 [1, 2, 3, 4, 5]),
    .complete (segmentCall true 0 .faultless 2 [6])]

theorem allOrNothing_wholeRun :
    (Run.exec step init wholeRun).delivered =
        [⟨twoSegmentsKey, .concludedCallback, [1, 2, 3, 4, 5, 6], []⟩] ∧
      Run.Always step (AllOrNothing twoSegmentsKey twoSegments) init wholeRun := by
  have hpresents : ∀ e ∈ wholeRun, Presents twoSegmentsKey twoSegments true e := by
    simp only [wholeRun, forall_mem_cons, not_mem_nil, false_imp_iff, implies_true, and_true]
    exact ⟨fun _ => isSegmentOf_segmentCall true 0 _ (by decide),
      fun _ => isSegmentOf_segmentCall true 0 _ (by decide)⟩
  refine ⟨by decide +kernel, allOrNothing_of_stages hpresents ?_⟩
  have hcan (s : SplitStore) index payload :
      s.CanStage (segmentCall true 0 .faultless index payload) :=
    ⟨nofun, fun _ => .inl le_rfl, nofun⟩
  exact ⟨fun _ _ _ => hcan _ _ _, fun _ _ _ => hcan _ _ _, trivial⟩

/-- The first segment cannot be staged: the budget is too small, or the disk is full. -/
def skippingRun (inMemory : Bool) : List SplitEvent :=
  [.complete (segmentCall inMemory 4
      { DiskAnswers.faultless with write := some ("no space left on device", 2) }
      1 [1, 2, 3, 4, 5]),
    .complete (segmentCall inMemory 4 .faultless 2 [6])]

/-- **A segment that could not be staged is skipped**, and the rest is delivered as if it were the
whole resource. -/
theorem skippingRun_torn :
    (∀ inMemory, ∀ e ∈ skippingRun inMemory,
      Presents twoSegmentsKey twoSegments inMemory e) ∧
    (Run.exec step init (skippingRun true)).delivered =
        [⟨twoSegmentsKey, .concludedCallback, [6], []⟩] ∧
    (Run.exec step init (skippingRun false)).delivered =
        [⟨twoSegmentsKey, .concludedCallback, [1, 2, 6], []⟩] ∧
    ∀ inMemory,
      ¬ Run.Always step (AllOrNothing twoSegmentsKey twoSegments) init (skippingRun inMemory) := by
  have hmemory : (Run.exec step init (skippingRun true)).delivered =
      [⟨twoSegmentsKey, .concludedCallback, [6], []⟩] := by decide +kernel
  have hdisk : (Run.exec step init (skippingRun false)).delivered =
      [⟨twoSegmentsKey, .concludedCallback, [1, 2, 6], []⟩] := by decide +kernel
  refine ⟨fun inMemory => ?_, hmemory, hdisk, fun inMemory h => ?_⟩
  · simp only [skippingRun, forall_mem_cons, not_mem_nil, false_imp_iff, implies_true, and_true]
    exact ⟨fun _ => isSegmentOf_segmentCall inMemory 4 _ (by decide),
      fun _ => isSegmentOf_segmentCall inMemory 4 _ (by decide)⟩
  · have hlast := h.last
    cases inMemory with
    | true =>
      have hfile := hlast _ (hmemory ▸ mem_singleton_self _) rfl
      cases hfile
    | false =>
      have hfile := hlast _ (hdisk ▸ mem_singleton_self _) rfl
      cases hfile

end SplitReceiver

end Reticulum

import Reticulum.Core.Table
import Reticulum.Resource.Def

/-!
# Segments on the receiving side

The segments of a split resource are **staged** under the link and the hash of the first segment
until the last one is there (`pkg/link/split_resource.go`): in buffers in memory, charged to a
budget that all links share, or in files.  A failure leaves behind what was written before it, so a
step returns a store *and* a result.
-/

namespace Reticulum

open Resource.Constants

/-! ## The memory budget -/

/-- A soft limit on the bytes that are staged in memory.  A limit that is not positive is none. -/
structure MemoryBudget where
  used : ℤ
  limit : ℤ
deriving DecidableEq

namespace MemoryBudget

def setLimit (b : MemoryBudget) (limit : ℤ) : MemoryBudget := { b with limit }

def tryReserve (b : MemoryBudget) (n : ℤ) : Except String MemoryBudget :=
  if n ≤ 0 then .ok b
  else if 0 < b.limit ∧ b.limit - n < b.used then .error "in-memory storage budget exceeded"
  else .ok { b with used := b.used + n }

def release (b : MemoryBudget) (n : ℤ) : MemoryBudget :=
  if n ≤ 0 then b else { b with used := max (b.used - n) 0 }

end MemoryBudget

/-! ## The store -/

structure SplitKey where
  linkID : Bytes
  originalHash : Bytes
deriving DecidableEq

/-- The record of an assembly: the segment that is due, and what the first one declared. -/
structure SplitAsm where
  nextIndex : UInt16
  declaredSegs : UInt16
  declaredSize : ℤ
  written : ℤ
deriving DecidableEq

/-- A file of the resource directory: the name of a staging file begins with the link, and the file
for the metadata has a suffix. -/
structure StagePath where
  linkID : Option Bytes
  originalHash : Bytes
  isMeta : Bool
deriving DecidableEq

structure SplitStore where
  assemblies : Map SplitKey SplitAsm
  mem : Map SplitKey Bytes
  metaMem : Map SplitKey Bytes
  budget : MemoryBudget
  disk : Map StagePath Bytes

namespace SplitStore

def maxSplitAssembliesPerLink : ℕ := 4
def maxSplitAssembliesTotal : ℕ := 1024
def maxSplitAssemblyBytes : ℤ := 2 ^ 30

def empty : SplitStore where
  assemblies := ∅
  mem := ∅
  metaMem := ∅
  budget := ⟨0, 0⟩
  disk := ∅

def resourceStoragePath (key : SplitKey) : StagePath := ⟨some key.linkID, key.originalHash, false⟩

def metaPath (key : SplitKey) : StagePath := ⟨some key.linkID, key.originalHash, true⟩

end SplitStore

/-! ## Admission -/

def SplitAsm.start (adv : ResourceAdvertisement) : SplitAsm where
  nextIndex := 1
  declaredSegs := adv.totalSegments
  declaredSize := adv.dataSize
  written := 0

def SplitAsm.limit (asm : SplitAsm) : ℤ :=
  min (max asm.declaredSize (asm.declaredSegs.toNat * maxEfficientSize))
    SplitStore.maxSplitAssemblyBytes

/-- Check a segment against the record, and count it in. -/
def SplitAsm.takeSegment (asm : SplitAsm) (adv : ResourceAdvertisement) (payloadLen : ℕ) :
    Except String SplitAsm :=
  if adv.segmentIndex ≠ asm.nextIndex then
    .error s!"split resource segment {adv.segmentIndex} out of order, want {asm.nextIndex}"
  else if adv.totalSegments ≠ asm.declaredSegs then
    .error s!"split resource segment count changed {asm.declaredSegs} to {adv.totalSegments}"
  else if asm.limit < asm.written + payloadLen then
    .error s!"split resource exceeds staged size limit {asm.limit}"
  else .ok { asm with written := asm.written + payloadLen, nextIndex := asm.nextIndex + 1 }

namespace SplitStore

section

variable (s : SplitStore) (key : SplitKey)

def findAssembly (adv : ResourceAdvertisement) : Except String SplitAsm :=
  match s.assemblies.lookup key with
  | some asm => .ok (if adv.segmentIndex = 1 then .start adv else asm)
  | none =>
    if maxSplitAssembliesTotal ≤ s.assemblies.keys.length then
      .error "split resource assembly limit reached"
    else if maxSplitAssembliesPerLink ≤
        (s.assemblies.keys.filter (·.linkID = key.linkID)).length then
      .error "per-link split resource assembly limit reached"
    else if adv.segmentIndex ≠ 1 then
      .error s!"split resource begins at segment {adv.segmentIndex}, want 1"
    else .ok (.start adv)

/-- The record is moved on to the next segment **before** this one is staged.  A segment that is
refused may still have started the record anew. -/
def admitSplitSegment (adv : ResourceAdvertisement)
    (payloadLen : ℕ) : SplitStore × Except String Unit :=
  match s.findAssembly key adv with
  | .error err => (s, .error err)
  | .ok asm =>
    match asm.takeSegment adv payloadLen with
    | .error err => ({ s with assemblies := s.assemblies.insert key asm }, .error err)
    | .ok asm' => ({ s with assemblies := s.assemblies.insert key asm' }, .ok ())

def finishSplitAssembly : SplitStore :=
  { s with assemblies := s.assemblies.erase key }

/-! ## Staging -/

def segmentMetadata (payload : Bytes) : Except String (Bytes × Bytes) :=
  match payload with
  | b₀ :: b₁ :: b₂ :: rest =>
    let metaSize := b₀.toNat * 2 ^ 16 + b₁.toNat * 2 ^ 8 + b₂.toNat
    if rest.length < metaSize then .error "split segment metadata size invalid"
    else .ok (rest.take metaSize, rest.drop metaSize)
  | _ => .error "split segment metadata too short"

def discardInMemory : SplitStore :=
  let s := match s.mem.lookup key with
    | some data => { s with budget := s.budget.release data.length, mem := s.mem.insert key [] }
    | none => s
  match s.metaMem.lookup key with
  | some prev =>
    { s with budget := s.budget.release prev.length, metaMem := s.metaMem.erase key }
  | none => s

def keepMetadata (packed : Bytes) : SplitStore × Except String Unit :=
  match s.budget.tryReserve packed.length with
  | .error err => (s, .error err)
  | .ok budget =>
    let budget := match s.metaMem.lookup key with
      | some prev => budget.release prev.length
      | none => budget
    ({ s with budget, metaMem := s.metaMem.insert key packed }, .ok ())

def appendInMemory (fileBytes : Bytes) : SplitStore × Except String Unit :=
  match s.budget.tryReserve fileBytes.length with
  | .error err => (s, .error err)
  | .ok budget =>
    ({ s with
      budget
      mem := s.mem.insert key ((s.mem.lookup key).getD [] ++ fileBytes) }, .ok ())

def stageInMemory (limit : ℤ) (s : SplitStore) (key : SplitKey) (payload : Bytes)
    (adv : ResourceAdvertisement) : SplitStore × Except String Unit :=
  let s := { s with budget := s.budget.setLimit limit }
  let s := if adv.segmentIndex = 1 then s.discardInMemory key else s
  if adv.hasMetadata ∧ adv.segmentIndex = 1 then
    match segmentMetadata payload with
    | .error err => (s, .error err)
    | .ok (packed, fileBytes) =>
      match s.keepMetadata key packed with
      | (s, .error err) => (s, .error err)
      | (s, .ok ()) => s.appendInMemory key fileBytes
  else s.appendInMemory key payload

/-- What the file system answers during one call.  A failed write may have left something behind:
of the metadata file anything, of the staging file some of the bytes. -/
structure DiskAnswers where
  mkdir : Option String
  writeMeta : Option (String × Option Bytes)
  openFile : Option String
  write : Option (String × ℕ)
  readFile : Option String
  readMeta : Bool
  removed : StagePath → Bool

def DiskAnswers.faultless : DiskAnswers where
  mkdir := none
  writeMeta := none
  openFile := none
  write := none
  readFile := none
  readMeta := true
  removed _ := true

variable (io : DiskAnswers)

def remove (path : StagePath) : SplitStore :=
  if io.removed path then { s with disk := s.disk.erase path } else s

def writeMetaFile (key : SplitKey) (packed : Bytes) : SplitStore × Except String Unit :=
  match io.writeMeta with
  | some (err, some left) =>
    ({ s with disk := s.disk.insert (metaPath key) left }, .error err)
  | some (err, none) => ({ s with disk := s.disk.erase (metaPath key) }, .error err)
  | none => ({ s with disk := s.disk.insert (metaPath key) packed }, .ok ())

def writeFile (key : SplitKey) (truncate : Bool)
    (fileBytes : Bytes) : SplitStore × Except String Unit :=
  let path := resourceStoragePath key
  match io.openFile with
  | some err => (s, .error err)
  | none =>
    let before := if truncate then [] else (s.disk.lookup path).getD []
    match io.write with
    | some (err, n) =>
      ({ s with disk := s.disk.insert path (before ++ fileBytes.take n) }, .error err)
    | none => ({ s with disk := s.disk.insert path (before ++ fileBytes) }, .ok ())

def stageOnDisk (s : SplitStore) (key : SplitKey) (payload : Bytes)
    (adv : ResourceAdvertisement) : SplitStore × Except String Unit :=
  match io.mkdir with
  | some err => (s, .error err)
  | none =>
    let s := if adv.segmentIndex = 1 then s.remove io (metaPath key) else s
    if adv.hasMetadata ∧ adv.segmentIndex = 1 then
      match segmentMetadata payload with
      | .error err => (s, .error err)
      | .ok (packed, fileBytes) =>
        match s.writeMetaFile io key packed with
        | (s, .error err) => (s, .error err)
        | (s, .ok ()) => s.writeFile io key true fileBytes
    else s.writeFile io key (decide (adv.segmentIndex = 1)) payload

/-! ## Conclusion -/

def concludeInMemory : SplitStore × Bytes × Bytes :=
  let data := (s.mem.lookup key).getD []
  let metaRaw := (s.metaMem.lookup key).getD []
  let s := { s with mem := s.mem.erase key, metaMem := s.metaMem.erase key }
  let s := s.finishSplitAssembly key
  ({ s with budget := (s.budget.release data.length).release metaRaw.length }, data, metaRaw)

def concludeOnDisk (key : SplitKey) : SplitStore × Except String (Bytes × Bytes) :=
  match io.readFile with
  | some err => (s, .error err)
  | none =>
    let data := (s.disk.lookup (resourceStoragePath key)).getD []
    let metaRaw := if io.readMeta then (s.disk.lookup (metaPath key)).getD [] else []
    let s := if io.readMeta then s.remove io (metaPath key) else s
    let s := s.remove io (resourceStoragePath key)
    (s.finishSplitAssembly key, .ok (data, metaRaw))

end

/-- A call with everything it depends on: the link and its configuration, the segment, and what the
transfer is for. -/
structure SegmentCall where
  linkID : Bytes
  inMemory : Bool
  limit : ℤ
  hasCallback : Bool
  payload : Bytes
  adv : ResourceAdvertisement
  isRequest : Bool
  hasPending : Bool
  io : DiskAnswers

def SegmentCall.key (c : SegmentCall) : SplitKey := ⟨c.linkID, c.adv.originalHash⟩

inductive Recipient where
  | request
  | pending
  | concludedCallback
deriving DecidableEq

def SegmentCall.recipient (c : SegmentCall) : Option Recipient :=
  if c.isRequest then some .request
  else if c.hasPending then some .pending
  else if c.hasCallback then some .concludedCallback
  else none

/-- A resource that is handed to the application, with its metadata still packed. -/
structure Delivery where
  key : SplitKey
  recipient : Recipient
  data : Bytes
  metaRaw : Bytes
deriving DecidableEq

variable (s : SplitStore) (c : SegmentCall)

def stage : SplitStore × Except String Unit :=
  if c.inMemory then s.stageInMemory c.limit c.key c.payload c.adv
  else s.stageOnDisk c.io c.key c.payload c.adv

def conclude : SplitStore × Except String (Bytes × Bytes) :=
  if c.inMemory then
    let (s, taken) := s.concludeInMemory c.key
    (s, .ok taken)
  else s.concludeOnDisk c.io c.key

def deliver (data metaRaw : Bytes) : Option Delivery :=
  c.recipient.map fun recipient => ⟨c.key, recipient, data, metaRaw⟩

/-- Stage a segment that was admitted, and conclude the resource with the last one. -/
def stageAndConclude : SplitStore × Except String (Option Delivery) :=
  match s.stage c with
  | (s, .error err) => (s, .error err)
  | (s, .ok ()) =>
    if c.adv.segmentIndex < c.adv.totalSegments then (s, .ok none)
    else
      match s.conclude c with
      | (s, .error err) => (s, .error err)
      | (s, .ok (data, metaRaw)) => (s, .ok (deliver c data metaRaw))

def handleSplitSegmentComplete : SplitStore × Except String (Option Delivery) :=
  if c.adv.originalHash = [] then (s, .error "split resource missing original hash")
  else
    match s.admitSplitSegment c.key c.adv c.payload.length with
    | (s, .error err) => (s, .error err)
    | (s, .ok ()) => s.stageAndConclude c

/-! ## Closing a link -/

/-- Drop one assembly.  Metadata of no bytes is `nil` there and not dropped, and the files to remove
are looked for under a name without the link. -/
def dropAssembly (io : StagePath → Bool) (s : SplitStore) (key : SplitKey) : SplitStore :=
  let s := s.finishSplitAssembly key
  let s := match s.mem.lookup key with
    | some data => { s with budget := s.budget.release data.length, mem := s.mem.erase key }
    | none => s
  let s := match s.metaMem.lookup key with
    | some packed =>
      if packed = [] then s
      else { s with budget := s.budget.release packed.length, metaMem := s.metaMem.erase key }
    | none => s
  let path : StagePath := ⟨none, key.originalHash, false⟩
  let disk := if io path then s.disk.erase path else s.disk
  let metaFile := { path with isMeta := true }
  { s with disk := if io metaFile then disk.erase metaFile else disk }

/-- Drop the assemblies of a link, or all of them for a link without an identity. -/
def dropSplitAssemblies (linkID : Bytes) (io : StagePath → Bool) : SplitStore :=
  (s.assemblies.keys.filter fun key => linkID = [] ∨ key.linkID = linkID).foldl
    (dropAssembly io) s

end SplitStore

end Reticulum

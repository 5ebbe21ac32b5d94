import Reticulum.Core.Chunks
import Reticulum.Core.Fallible
import Reticulum.Packet.Def

/-!
# Resources

A **resource** is a body of data too large for one packet (`pkg/resource`).  The sender prefixes the
packed metadata, compresses the result if that pays, prepends a random hash, encrypts, and cuts the
ciphertext into **parts**, which are named by their **map hash**; the **advertisement** carries
these to the receiver.  A body above `maxEfficientSize` is sent as several **segments**, each like a
resource of its own.

A nil slice and an empty slice differ where the code tells them apart; such a field is an `Option`.
A failing call returns its error without the fields it has already written.
-/

namespace Reticulum

/-! ## Constants -/

namespace Resource.Constants

def maxSegments : ℕ := 65535

def window : ℕ := 4
def windowMin : ℕ := 2
def windowMaxSlow : ℕ := 10
def windowMaxFast : ℕ := 75
def windowMax : ℕ := windowMaxFast
def windowFlexibility : ℕ := 4

def mapHashLen : ℕ := 4
def randomHashSize : ℕ := 4

def maxEfficientSize : ℕ := 1 * 1024 * 1024 - 1
def autoCompressMaxSize : ℕ := maxEfficientSize
def metadataMaxSize : ℕ := 16 * 1024

def overhead : ℤ := 134
def defaultLinkMDU : ℤ := 431
def hashmapMaxLen : ℕ := 74
def collisionGuardSize : ℕ := 2 * windowMax + hashmapMaxLen

end Resource.Constants

open Resource.Constants

/-! ## Hashes -/

namespace Sha256

def mapHash (sha : Sha256) (randomHash part : Bytes) : Bytes :=
  (sha.sum (part ++ randomHash)).take mapHashLen

@[simp] lemma length_mapHash (sha : Sha256) (randomHash part : Bytes) :
    (sha.mapHash randomHash part).length = mapHashLen := by
  simp [mapHash, sha.length_sum, mapHashLen]

end Sha256

structure RandomHash where
  bytes : Bytes
  length_bytes : bytes.length = randomHashSize

def RandomHash.zero : RandomHash := ⟨[0, 0, 0, 0], rfl⟩

/-! ## Advertisements -/

structure ResourceAdvertisement where
  transferSize : ℤ
  dataSize : ℤ
  parts : ℤ
  hash : Bytes
  randomHash : Bytes
  originalHash : Bytes
  hashmap : Bytes
  compressed : Bool
  encrypted : Bool
  split : Bool
  hasMetadata : Bool
  segmentIndex : UInt16
  totalSegments : UInt16
deriving DecidableEq

def ResourceAdvertisement.plain (transferSize parts : ℤ) (randomHash hashmap : Bytes) :
    ResourceAdvertisement where
  transferSize
  dataSize := transferSize
  parts
  hash := []
  randomHash
  originalHash := []
  hashmap
  compressed := false
  encrypted := false
  split := false
  hasMetadata := false
  segmentIndex := 1
  totalSegments := 1

/-- How many map hashes one advertisement or hashmap update carries.  Tiny link MDUs still carry
one. -/
def hashmapEntriesPerSegment (linkMDU : ℤ) : ℕ :=
  let linkMDU := if linkMDU ≤ 0 then defaultLinkMDU else linkMDU
  let n := (linkMDU - overhead).tdiv mapHashLen
  if n ≤ 0 then 1 else n.toNat

lemma hashmapEntriesPerSegment_pos (linkMDU : ℤ) : 0 < hashmapEntriesPerSegment linkMDU := by
  simp only [hashmapEntriesPerSegment]
  split_ifs <;> omega

/-! ## The outgoing resource -/

/-- What the sender knows of a resource.  `fileHandle` is the contents of the file behind the
resource, `data` the bytes in memory: of the whole body before the first preparation, of the
current segment afterwards. -/
structure Resource where
  data : Option Bytes
  sourceData : Option Bytes
  fileHandle : Option Bytes
  hash : Bytes
  randomHash : Bytes
  originalHash : Bytes
  compressed : Bool
  autoCompress : Bool
  encrypted : Bool
  split : Bool
  segments : UInt16
  segmentIndex : UInt16
  totalSegments : UInt16
  transferSize : ℤ
  dataSize : ℤ
  totalSize : ℤ
  hashmap : Bytes
  outboundCipher : Option Bytes
  metadataPacked : Bytes
deriving DecidableEq

inductive Resource.Source where
  | bytes (b : Bytes)
  | readSeeker (contents : Bytes)

def Resource.Source.body : Source → Bytes
  | .bytes b => b
  | .readSeeker contents => contents

structure OutboundCodec where
  encrypt : Bytes → Except String Bytes
  compress : Bytes → Except String Bytes

def int64 (x : ℤ) : ℤ := x.bmod (2 ^ 64)

lemma int64_eq {x : ℤ} (hlo : -2 ^ 63 ≤ x) (hhi : x < 2 ^ 63) : int64 x = x :=
  Int.bmod_eq_of_le (by omega) (by omega)

namespace Resource

/-- A copy that is made by appending to a nil slice: the copy of an empty slice is nil. -/
def appendNil (b : Bytes) : Option Bytes := if b = [] then none else some b

/-- A new resource.  The estimates of `New` for the transfer size and the number of parts are
overwritten by the first preparation and left out. -/
def new (sha : Sha256) (source : Source) (autoCompress : Bool) : Resource where
  data := match source with
    | .bytes b => some b
    | .readSeeker _ => none
  sourceData := none
  fileHandle := match source with
    | .bytes _ => none
    | .readSeeker contents => some contents
  hash := sha.sum source.body
  randomHash := []
  originalHash := []
  compressed := false
  autoCompress
  encrypted := false
  split := false
  segments := 0
  segmentIndex := 0
  totalSegments := 0
  transferSize := source.body.length
  dataSize := source.body.length
  totalSize := 0
  hashmap := []
  outboundCipher := none
  metadataPacked := []

def metadataBlob (packed : Bytes) : Bytes :=
  [.ofNat (packed.length / 2 ^ 16), .ofNat (packed.length / 2 ^ 8),
    UInt8.ofNat packed.length] ++ packed

lemma length_metadataBlob (packed : Bytes) : (metadataBlob packed).length = packed.length + 3 := by
  simp [metadataBlob]

def setMetadataPacked (r : Resource) (packed : Bytes) : Except String Resource :=
  if packed = [] then .ok { r with metadataPacked := [] }
  else if metadataMaxSize < packed.length then .error "resource metadata size exceeded"
  else .ok { r with metadataPacked := metadataBlob packed }

variable {r : Resource} {body : Bytes}

lemma setMetadataPacked_ok {r' : Resource} {packed : Bytes}
    (h : r.setMetadataPacked packed = .ok r') :
    packed.length ≤ metadataMaxSize ∧
      r' = { r with metadataPacked := if packed = [] then [] else metadataBlob packed } := by
  rw [setMetadataPacked] at h
  split_ifs at h with hempty hlarge
  · refine ⟨by simp [hempty], ?_⟩
    rw [if_pos hempty, ← Except.ok.inj h]
  · refine ⟨by omega, ?_⟩
    rw [if_neg hempty, ← Except.ok.inj h]

def memory (r : Resource) : Option Bytes := r.sourceData <|> r.data

def rawBodySize (r : Resource) : Except String ℤ :=
  match r.fileHandle with
  | some contents => .ok contents.length
  | none =>
    match r.memory with
    | some src => .ok src.length
    | none => .error "no data"

def readRawBody (r : Resource) (offset length : ℤ) : Except String Bytes :=
  if length < 0 then .error "negative read length"
  else if length = 0 then .ok []
  else
    match r.fileHandle with
    | some contents => .ok ((contents.drop offset.toNat).take length.toNat)
    | none =>
      match r.memory with
      | some src =>
        if src.length < offset then .error "segment offset past end of data"
        else .ok ((src.drop offset.toNat).take length.toNat)
      | none => .error "no data"

def rawBody (r : Resource) : Option Bytes :=
  match r.fileHandle with
  | some contents => some contents
  | none => r.memory

lemma rawBodySize_eq (h : r.rawBody = some body) : r.rawBodySize = .ok body.length := by
  rw [rawBody] at h
  rw [rawBodySize]
  cases hfile : r.fileHandle with
  | some contents =>
    rw [hfile] at h
    rw [← Option.some.inj h]
  | none =>
    rw [hfile] at h
    simp only at h ⊢
    rw [h]

lemma readRawBody_eq (h : r.rawBody = some body) {offset : ℕ} (hoffset : offset ≤ body.length)
    (length : ℕ) : r.readRawBody offset length = .ok ((body.drop offset).take length) := by
  have hpast : ¬ (body.length : ℤ) < offset := by omega
  rw [rawBody] at h
  rw [readRawBody, if_neg (by omega)]
  split_ifs with hzero
  · simp [show length = 0 by omega]
  · cases hfile : r.fileHandle with
    | some contents =>
      rw [hfile] at h
      rw [← Option.some.inj h]
      rfl
    | none =>
      rw [hfile] at h
      simp only at h ⊢
      rw [h]
      simp only [if_neg hpast]
      rfl

/-- The body as it goes over the wire: compressed if that is asked for and makes it shorter. -/
def compressBody (codec : OutboundCodec) (autoCompress : Bool) (wireBody : Bytes) :
    Except String (Bytes × Bool) :=
  if autoCompress then
    match codec.compress wireBody with
    | .error err => .error err
    | .ok compressed =>
      if compressed.length < wireBody.length then .ok (compressed, true) else .ok (wireBody, false)
  else .ok (wireBody, false)

lemma compressBody_ok {codec : OutboundCodec} {autoCompress compressed : Bool}
    {wireBody payload : Bytes}
    (h : compressBody codec autoCompress wireBody = .ok (payload, compressed)) :
    (compressed = false ∧ payload = wireBody) ∨
      (compressed ∧ codec.compress wireBody = .ok payload ∧ payload.length < wireBody.length) := by
  rw [compressBody] at h
  split_ifs at h with hauto
  · cases hc : codec.compress wireBody with
    | error err => simp [hc] at h
    | ok b =>
      rw [hc] at h
      simp only at h
      split_ifs at h with hlt
      · obtain ⟨rfl, rfl⟩ := Prod.mk.inj (Except.ok.inj h)
        exact .inr ⟨rfl, rfl, hlt⟩
      · obtain ⟨rfl, rfl⟩ := Prod.mk.inj (Except.ok.inj h)
        exact .inl ⟨rfl, rfl⟩
  · obtain ⟨rfl, rfl⟩ := Prod.mk.inj (Except.ok.inj h)
    exact .inl ⟨rfl, rfl⟩

def wireBody (r : Resource) (segmentBody : Bytes) (includeMeta : Bool) : Bytes :=
  if includeMeta ∧ r.metadataPacked ≠ [] then r.metadataPacked ++ segmentBody else segmentBody

@[simp] lemma wireBody_true (r : Resource) (b : Bytes) :
    r.wireBody b true = r.metadataPacked ++ b := by
  rw [wireBody]
  split_ifs with h
  · rfl
  · simp_all

@[simp] lemma wireBody_false (r : Resource) (b : Bytes) : r.wireBody b false = b := by
  rw [wireBody, if_neg (by simp)]

section

variable (sha : Sha256)

def withSegment (r : Resource) (sdu : ℕ) (segmentBody wireBody : Bytes)
    (randomHash : RandomHash) (compressed : Bool) (innerBlob : Bytes) : Resource :=
  let hash := sha.sum (wireBody ++ randomHash.bytes)
  let partCount := Chunks.count sdu innerBlob.length
  { r with
    compressed
    hash
    randomHash := randomHash.bytes
    originalHash := if r.originalHash.length = Sha256.size then r.originalHash else hash
    sourceData :=
      if r.split ∧ r.sourceData = none ∧ r.data ≠ none ∧ r.fileHandle = none then r.data
      else r.sourceData
    data := appendNil segmentBody
    encrypted := true
    segments := .ofNat partCount
    transferSize := innerBlob.length
    dataSize := wireBody.length
    hashmap := (List.range partCount).flatMap fun i =>
      sha.mapHash randomHash.bytes (Chunks.slice sdu innerBlob i)
    outboundCipher := some innerBlob }

def finishPrepareSegment (codec : OutboundCodec)
    (random : Except String RandomHash) (r : Resource) (sdu : ℕ) (segmentBody : Bytes)
    (includeMeta : Bool) : Except String Resource := do
  let wireBody := r.wireBody segmentBody includeMeta
  let randomHash ← random
  let (payload, compressed) ← compressBody codec r.autoCompress wireBody
  let innerBlob ← codec.encrypt (randomHash.bytes ++ payload)
  if maxSegments < Chunks.count sdu innerBlob.length then .error "resource too large"
  else .ok (withSegment sha r sdu segmentBody wireBody randomHash compressed innerBlob)

lemma finishPrepareSegment_ok {sha : Sha256} {codec : OutboundCodec}
    {random : Except String RandomHash} {r' : Resource} {sdu : ℕ} {segmentBody : Bytes}
    {includeMeta : Bool}
    (h : finishPrepareSegment sha codec random r sdu segmentBody includeMeta = .ok r') :
    ∃ randomHash payload compressed innerBlob, random = .ok randomHash ∧
      compressBody codec r.autoCompress (r.wireBody segmentBody includeMeta) =
        .ok (payload, compressed) ∧
      codec.encrypt (randomHash.bytes ++ payload) = .ok innerBlob ∧
      Chunks.count sdu innerBlob.length ≤ maxSegments ∧
      r' = withSegment sha r sdu segmentBody (r.wireBody segmentBody includeMeta) randomHash
        compressed innerBlob := by
  obtain ⟨randomHash, hrandom, h⟩ := Fallible.bind_eq_ok.1 h
  obtain ⟨⟨payload, compressed⟩, hcompress, h⟩ := Fallible.bind_eq_ok.1 h
  obtain ⟨innerBlob, hencrypt, h⟩ := Fallible.bind_eq_ok.1 h
  split_ifs at h with hcount
  exact ⟨randomHash, payload, compressed, innerBlob, hrandom, hcompress, hencrypt, by omega,
    (Except.ok.inj h).symm⟩

/-- Where segment `index` of a split body starts and how long it is: the first one makes room for
the metadata. -/
def segmentRange (firstRead fileSize : ℤ) (index : UInt16) : ℤ × ℤ :=
  if index = 1 then (0, min firstRead fileSize)
  else
    let offset := firstRead + (index - 2).toNat * maxEfficientSize
    let length : ℤ := if offset + maxEfficientSize > fileSize then fileSize - offset
      else maxEfficientSize
    (offset, if length < 0 then 0 else length)

def prepareWhole (codec : OutboundCodec) (random : Except String RandomHash)
    (r : Resource) (sdu : ℕ) (fileSize : ℤ) : Except String Resource := do
  let r := { r with split := false, totalSegments := 1, segmentIndex := 1 }
  let body ← r.readRawBody 0 fileSize
  finishPrepareSegment sha codec random r sdu body true

/-- Prepare one segment of a body that does not.  The number of segments is a 16-bit integer. -/
def prepareSplit (codec : OutboundCodec) (random : Except String RandomHash)
    (r : Resource) (sdu : ℕ) (fileSize : ℤ) : Except String Resource := do
  let r := { r with
    split := true
    totalSegments := .ofNat ((r.totalSize - 1).toNat / maxEfficientSize + 1) }
  if r.segmentIndex < 1 ∨ r.totalSegments < r.segmentIndex then
    .error s!"invalid segment index {r.segmentIndex} of {r.totalSegments}"
  else
    let firstRead : ℤ := maxEfficientSize - r.metadataPacked.length
    if firstRead < 0 then .error "metadata exceeds efficient segment size"
    else
      let range := segmentRange firstRead fileSize r.segmentIndex
      let body ← r.readRawBody range.1 range.2
      finishPrepareSegment sha codec random r sdu body (decide (r.segmentIndex = 1))

def prepareOutboundForLink (codec : Option OutboundCodec)
    (random : Except String RandomHash) (r : Resource) (sdu : ℤ) : Except String Resource :=
  if sdu ≤ 0 then .error "invalid sdu"
  else
    match codec with
    | none => .error "nil encrypt"
    | some codec => do
      let fileSize ← r.rawBodySize
      let r := { r with
        totalSize := int64 (fileSize + r.metadataPacked.length)
        segmentIndex := if r.segmentIndex = 0 then 1 else r.segmentIndex }
      if r.totalSize ≤ (maxEfficientSize : ℤ) then
        prepareWhole sha codec random r sdu.toNat fileSize
      else prepareSplit sha codec random r sdu.toNat fileSize

def whole (r : Resource) (totalSize : ℤ) : Resource :=
  { r with totalSize, segmentIndex := 1, split := false, totalSegments := 1 }

lemma rawBody_new (source : Source) (autoCompress : Bool) (metadataPacked : Bytes) :
    ({ new sha source autoCompress with metadataPacked } : Resource).rawBody =
      some source.body := by
  cases source <;> rfl

lemma prepareOutboundForLink_whole {sha : Sha256} (hbody : r.rawBody = some body)
    (hsize : body.length + r.metadataPacked.length ≤ maxEfficientSize) {sdu : ℤ} (hsdu : 0 < sdu)
    (out : OutboundCodec) (random : Except String RandomHash) :
    prepareOutboundForLink sha (some out) random r sdu =
      finishPrepareSegment sha out random
        (r.whole (body.length + r.metadataPacked.length : ℕ)) sdu.toNat body true := by
  have hread : (r.whole (body.length + r.metadataPacked.length : ℕ)).readRawBody 0 body.length =
      .ok body := by
    have h : (r.whole (body.length + r.metadataPacked.length : ℕ)).rawBody = some body := hbody
    simpa using readRawBody_eq h (Nat.zero_le _) body.length
  have htotal : int64 (body.length + r.metadataPacked.length) =
      (body.length + r.metadataPacked.length : ℕ) := by
    rw [maxEfficientSize] at hsize
    rw [int64_eq (by omega) (by omega)]
    rfl
  rw [prepareOutboundForLink, if_neg (by omega)]
  refine (Fallible.bind_eq_of_ok (rawBodySize_eq hbody) _).trans ?_
  rw [if_pos (htotal.trans_le (by exact_mod_cast hsize)), htotal, prepareWhole]
  exact Fallible.bind_eq_of_ok hread _

def prepareNextOutboundSegment (codec : Option OutboundCodec)
    (random : Except String RandomHash) (r : Resource) (sdu : ℤ) : Except String Resource :=
  if !r.split ∨ r.totalSegments ≤ r.segmentIndex then .error "no next segment"
  else prepareOutboundForLink sha codec random { r with segmentIndex := r.segmentIndex + 1 } sdu

def outboundCiphertextSlice (r : Resource) (partIndex sdu : ℤ) : Option Bytes :=
  match r.outboundCipher with
  | none => none
  | some cipher =>
    if sdu ≤ 0 ∨ partIndex < 0 ∨ r.segments.toNat ≤ partIndex then none
    else if (cipher.length : ℤ) ≤ partIndex * sdu then none
    else some (Chunks.slice sdu.toNat cipher partIndex.toNat)

/-- What a receiver proves: a hash over the uncompressed bytes and the hash of the resource. -/
def expectedProof (r : Resource) : Option Bytes :=
  if r.hash.length ≠ Sha256.size then none
  else
    match r.data with
    | none => none
    | some data =>
      let body := if r.metadataPacked ≠ [] ∧ (r.segmentIndex = 0 ∨ r.segmentIndex = 1) then
        r.metadataPacked ++ data else data
      some (sha.sum (body ++ r.hash))

end

def hasMetadata (r : Resource) : Bool := decide (r.metadataPacked ≠ [])

def getTotalSize (r : Resource) : ℤ := if r.totalSize > 0 then r.totalSize else r.dataSize

def newResourceAdvertisement (r : Resource) : ResourceAdvertisement where
  transferSize := r.transferSize
  dataSize := r.getTotalSize
  parts := r.segments.toNat
  hash := r.hash
  randomHash := r.randomHash
  originalHash := r.originalHash
  hashmap := r.hashmap
  compressed := r.compressed
  encrypted := r.encrypted
  split := r.split
  hasMetadata := r.hasMetadata
  segmentIndex := r.segmentIndex
  totalSegments := r.totalSegments

end Resource

end Reticulum

import Reticulum.Core.Table
import Reticulum.Resource.Def

/-!
# From a body to parts and back

The sender of a resource makes parts out of a body and its packed metadata
(`Resource.prepareOutboundForLink`); the receiver joins the parts, decrypts and decompresses them,
checks the hash, takes the metadata off again, and proves what it received.

The second undoes the first exactly if the body is not empty (**`roundTrips_iff`**): the sender
copies an empty body to a nil slice, and then takes the resource for one without data.
-/

namespace Reticulum

open Resource.Constants Chunks

/-! ## The receiver -/

/-- The codecs of the receiver.  `decompress b n` reads `n` bytes, or fewer at the end, of what `b`
decompresses to. -/
structure InboundCodec where
  decrypt : Bytes → Except String Bytes
  decompress : Bytes → ℕ → Except String Bytes

structure TransferCodec where
  outbound : OutboundCodec
  inbound : InboundCodec
  decrypt_encrypt : ∀ plain sealed, outbound.encrypt plain = .ok sealed →
    inbound.decrypt sealed = .ok plain
  decompress_compress : ∀ b compressed, outbound.compress b = .ok compressed →
    ∀ n, inbound.decompress compressed n = .ok (b.take n)

def decryptPayload (codec : InboundCodec) (adv : ResourceAdvertisement) (inner : Bytes) :
    Except String Bytes :=
  if adv.encrypted then codec.decrypt inner else .ok inner

/-- Undo the compression, if any, reading one byte more than allowed to notice an excess. -/
def decompressPayload (codec : InboundCodec) (adv : ResourceAdvertisement) (data : Bytes) :
    Except String Bytes :=
  if !adv.compressed then .ok data
  else if adv.dataSize ≤ 0 then .error "incoming compressed resource has invalid data_size"
  else if !adv.split ∧ (autoCompressMaxSize : ℤ) < adv.dataSize then
    .error "incoming compressed resource exceeds AutoCompressMaxSize"
  else
    match codec.decompress data (min adv.dataSize.toNat autoCompressMaxSize + 1) with
    | .error err => .error err
    | .ok decompressed =>
      if adv.dataSize < decompressed.length then
        .error "incoming compressed resource exceeds advertised data_size"
      else if autoCompressMaxSize < decompressed.length then
        .error "incoming compressed resource exceeds decompression bound"
      else .ok decompressed

def assembleIncomingPayload (sha : Sha256) (codec : InboundCodec) (inner : Bytes)
    (adv : ResourceAdvertisement) : Except String Bytes := do
  let innerPlain ← decryptPayload codec adv inner
  if innerPlain.length < randomHashSize then
    .error "incoming resource too short for random hash"
  else
    let data ← decompressPayload codec adv (innerPlain.drop randomHashSize)
    if sha.sum (data ++ adv.randomHash) ≠ adv.hash then .error "incoming resource hash mismatch"
    else .ok data

/-- A key of a map of metadata: a string, an integer, or something else with its text. -/
inductive MetadataKey where
  | string (s : String)
  | int (i : ℤ)
  | other (text : String)
deriving DecidableEq

/-- `msgpack.Unmarshal` into a map with any keys, in the order in which it is then visited, and into
one with strings as keys, which may be nil.  Where it panics, as for a key that a map cannot have,
there is no result. -/
structure Msgpack (V : Type) where
  unmarshalAny : Bytes → Option (Except String (Map MetadataKey V))
  unmarshalStrings : Bytes → Option (Except String (Option (Map String V)))

def metadataMapKey : MetadataKey → String
  | .string s => s
  | .int i => toString i
  | .other text => text

/-- Gives every entry a string as its key.  Of two keys with the same text the later one counts. -/
def normalizeMetadataMap {V : Type} (raw : Map MetadataKey V) : Map String V :=
  raw.entries.foldl (fun out e => out.insert (metadataMapKey e.1) e.2) ∅

/-- Unpacks metadata with keys of any kind, or else with strings as keys; panics are recovered. -/
def unpackResourceMetadata {V : Type} (mp : Msgpack V) (packed : Bytes) :
    Except String (Option (Map String V)) :=
  let strMap := (mp.unmarshalStrings packed).getD (.error "invalid metadata msgpack")
  match mp.unmarshalAny packed with
  | none => .error "invalid metadata msgpack"
  | some (.error _) => strMap
  | some (.ok raw) => if raw.entries = [] then strMap else .ok (normalizeMetadataMap raw)

/-- Take the metadata off a payload.  A region whose length is in order is taken off even if it
does not unpack. -/
def splitResourceMetadata {V : Type} (mp : Msgpack V) (adv : ResourceAdvertisement) :
    Bytes → Bytes × Option (Map String V)
  | b₀ :: b₁ :: b₂ :: rest =>
    let metaSize := b₀.toNat * 2 ^ 16 + b₁.toNat * 2 ^ 8 + b₂.toNat
    if adv.hasMetadata ∧ metaSize ≤ rest.length then
      (rest.drop metaSize, (unpackResourceMetadata mp (rest.take metaSize)).toOption.join)
    else (b₀ :: b₁ :: b₂ :: rest, none)
  | payload => (payload, none)

def incomingResourceProof (sha : Sha256) (payload resourceHash : Bytes) : Except String Bytes :=
  if resourceHash.length ≠ Sha256.size then .error "resource hash must be 32 bytes"
  else .ok (sha.sum (payload ++ resourceHash))

namespace Resource

variable {sha : Sha256} {codec : TransferCodec} {V : Type} {mp : Msgpack V}
  {adv : ResourceAdvertisement}

/-! ## Metadata -/

/-- **The receiver takes off the metadata that the sender put in front.** -/
lemma splitResourceMetadata_blob (hadv : adv.hasMetadata) {packed : Bytes}
    (hpacked : packed.length ≤ metadataMaxSize) (body : Bytes) :
    splitResourceMetadata mp adv (metadataBlob packed ++ body) =
      (body, (unpackResourceMetadata mp packed).toOption.join) := by
  have hsize : (UInt8.ofNat (packed.length / 2 ^ 16)).toNat * 2 ^ 16 +
      (UInt8.ofNat (packed.length / 2 ^ 8)).toNat * 2 ^ 8 + (UInt8.ofNat packed.length).toNat =
      packed.length := by
    simp only [UInt8.toNat_ofNat', metadataMaxSize] at hpacked ⊢
    omega
  simp only [metadataBlob, List.cons_append, List.nil_append, splitResourceMetadata, hsize]
  rw [if_pos ⟨hadv, by simp⟩, List.drop_left, List.take_left]

lemma splitResourceMetadata_none (hadv : adv.hasMetadata = false) (payload : Bytes) :
    splitResourceMetadata mp adv payload = (payload, none) := by
  rw [splitResourceMetadata.eq_def]
  split
  · rw [if_neg (by simp [hadv])]
  · rfl

/-! ## Decompression -/

/-- **What was compressed decompresses**, given the advertised size and the limits. -/
lemma decompressPayload_compress {b compressed : Bytes} (hadv : adv.compressed)
    (hc : codec.outbound.compress b = .ok compressed) (hsize : adv.dataSize = b.length)
    (hpos : 0 < b.length) (hmax : b.length ≤ autoCompressMaxSize) :
    decompressPayload codec.inbound adv compressed = .ok b := by
  have hle : ¬ (autoCompressMaxSize : ℤ) < b.length := by exact_mod_cast hmax.not_gt
  have hbound : b.length ≤ min (b.length : ℤ).toNat autoCompressMaxSize + 1 := by
    omega
  rw [decompressPayload, if_neg (by simp [hadv]), hsize, if_neg (by omega),
    if_neg fun h => hle h.2,
    codec.decompress_compress b compressed hc, List.take_of_length_le hbound]
  simp only
  rw [if_neg (by omega), if_neg (by omega)]

/-! ## Parts -/

section Parts

variable {r r' : Resource} {sdu : ℤ} {segmentBody wireBody innerBlob : Bytes}
  {randomHash : RandomHash} {compressed : Bool}

lemma toNat_segments (hcount : count sdu.toNat innerBlob.length ≤ maxSegments) :
    (withSegment sha r sdu.toNat segmentBody wireBody randomHash compressed
      innerBlob).segments.toNat = count sdu.toNat innerBlob.length := by
  rw [maxSegments] at hcount
  simp only [withSegment, UInt16.toNat_ofNat']
  omega

lemma outboundCiphertextSlice_withSegment (hsdu : 0 < sdu)
    (hcount : count sdu.toNat innerBlob.length ≤ maxSegments) {i : ℕ}
    (hi : i < count sdu.toNat innerBlob.length) :
    (withSegment sha r sdu.toNat segmentBody wireBody randomHash compressed
      innerBlob).outboundCiphertextSlice i sdu = some (slice sdu.toNat innerBlob i) := by
  have hsegments : (withSegment sha r sdu.toNat segmentBody wireBody randomHash compressed
      innerBlob).segments.toNat = count sdu.toNat innerBlob.length :=
    toNat_segments hcount
  have hlt : i * sdu < innerBlob.length := by
    have := mul_lt_of_lt_count hi
    have hcast : i * sdu.toNat = i * sdu := by
      rw [Int.toNat_of_nonneg hsdu.le]
    omega
  rw [outboundCiphertextSlice, hsegments]
  simp only [withSegment]
  rw [if_neg (by omega), if_neg (by omega), Int.toNat_natCast]

lemma slice_hashmap_withSegment {i : ℕ} (hi : i < count sdu.toNat innerBlob.length) :
    slice mapHashLen (withSegment sha r sdu.toNat segmentBody wireBody randomHash compressed
        innerBlob).hashmap i =
      sha.mapHash randomHash.bytes (slice sdu.toNat innerBlob i) :=
  slice_flatMap (fun _ _ => sha.length_mapHash _ _) hi

end Parts

def joinedParts (r : Resource) (sdu : ℤ) : Bytes :=
  (List.range r.segments.toNat).flatMap fun i : ℕ => (r.outboundCiphertextSlice i sdu).getD []

lemma joinedParts_withSegment {r : Resource} {sdu : ℤ} {segmentBody wireBody innerBlob : Bytes}
    {randomHash : RandomHash} {compressed : Bool} (hsdu : 0 < sdu)
    (hcount : count sdu.toNat innerBlob.length ≤ maxSegments) :
    (withSegment sha r sdu.toNat segmentBody wireBody randomHash compressed
      innerBlob).joinedParts sdu = innerBlob := by
  rw [joinedParts, toNat_segments hcount]
  conv_rhs => rw [← flatMap_slice (k := sdu.toNat) (by omega) innerBlob]
  refine List.flatMap_congr ?_
  intro i hi
  rw [outboundCiphertextSlice_withSegment hsdu hcount (List.mem_range.1 hi), Option.getD_some]

/-! ## The receiver undoes the sender -/

/-- **The receiver recovers the uncompressed bytes.** -/
lemma assembleIncomingPayload_eq {autoCompress compressed : Bool}
    {wireBody payload innerBlob : Bytes} {randomHash : RandomHash}
    (hcompress : compressBody codec.outbound autoCompress wireBody = .ok (payload, compressed))
    (hencrypt : codec.outbound.encrypt (randomHash.bytes ++ payload) = .ok innerBlob)
    (hencrypted : adv.encrypted) (hcompressed : adv.compressed = compressed)
    (hrandom : adv.randomHash = randomHash.bytes)
    (hhash : adv.hash = sha.sum (wireBody ++ randomHash.bytes))
    (hsize : 0 < wireBody.length → adv.dataSize = wireBody.length)
    (hmax : wireBody.length ≤ autoCompressMaxSize) :
    assembleIncomingPayload sha codec.inbound innerBlob adv = .ok wireBody := by
  have hlen := randomHash.length_bytes
  have hdrop : (randomHash.bytes ++ payload).drop randomHashSize = payload := by
    rw [← hlen, List.drop_left]
  have hplain : decryptPayload codec.inbound adv innerBlob = .ok (randomHash.bytes ++ payload) := by
    rw [decryptPayload, if_pos hencrypted]
    exact codec.decrypt_encrypt _ _ hencrypt
  have hdata : decompressPayload codec.inbound adv payload = .ok wireBody := by
    rcases compressBody_ok hcompress with ⟨rfl, rfl⟩ | ⟨rfl, hc, hlt⟩
    · rw [decompressPayload, if_pos (by simp [hcompressed])]
    · exact decompressPayload_compress hcompressed hc (hsize (by omega)) (by omega) hmax
  refine (Fallible.bind_eq_of_ok hplain _).trans ?_
  rw [if_neg (by rw [List.length_append]; omega), hdrop]
  refine (Fallible.bind_eq_of_ok hdata _).trans ?_
  rw [hrandom, hhash, if_neg (by simp)]

/-- **The round trip of a resource.**
* The parts join to the ciphertext.
* Entry `i` of the hashmap is the map hash of part `i`.
* From the joined parts the receiver gets the body and the metadata, and the proof it computes is
  the one that the sender expects. -/
structure RoundTrips (sha : Sha256) (codec : InboundCodec) (mp : Msgpack V) (r : Resource) (sdu : ℤ)
    (body packed : Bytes) : Prop where
  parts : r.outboundCipher = some (r.joinedParts sdu)
  hashmap : r.hashmap.length = r.segments.toNat * mapHashLen ∧ ∀ i < r.segments.toNat, ∃ part,
    r.outboundCiphertextSlice i sdu = some part ∧
      slice mapHashLen r.hashmap i = sha.mapHash r.randomHash part
  received : ∃ payload proof,
    assembleIncomingPayload sha codec (r.joinedParts sdu) r.newResourceAdvertisement =
      .ok payload ∧
    splitResourceMetadata mp r.newResourceAdvertisement payload =
      (body, if packed = [] then none else (unpackResourceMetadata mp packed).toOption.join) ∧
    incomingResourceProof sha payload r.newResourceAdvertisement.hash = .ok proof ∧
    r.expectedProof sha = some proof

lemma expectedProof_withSegment {r : Resource} (hindex : r.segmentIndex = 1) (sdu : ℕ)
    (segmentBody innerBlob : Bytes) (randomHash : RandomHash) (compressed : Bool) :
    (withSegment sha r sdu segmentBody (r.wireBody segmentBody true) randomHash compressed
      innerBlob).expectedProof sha =
    if segmentBody = [] then none
    else some (sha.sum (r.wireBody segmentBody true ++
      sha.sum (r.wireBody segmentBody true ++ randomHash.bytes))) := by
  rw [expectedProof, if_neg (by simp [withSegment, sha.length_sum, Sha256.size])]
  simp only [withSegment, appendNil]
  by_cases hempty : segmentBody = []
  · rw [if_pos hempty, if_pos hempty]
  · simp only [hindex, wireBody_true]
    split_ifs with hmeta
    · rfl
    · simp_all

section OneSegment

variable {source : Source} {autoCompress : Bool} {packed : Bytes}
  {random : Except String RandomHash} {sdu : ℤ} {r₀ r : Resource}

lemma splitResourceMetadata_of_packed
    (hmeta : (new sha source autoCompress).setMetadataPacked packed = .ok r₀)
    {adv : ResourceAdvertisement} (hadv : adv.hasMetadata = decide (r₀.metadataPacked ≠ []))
    (body : Bytes) :
    splitResourceMetadata mp adv (r₀.metadataPacked ++ body) =
      (body, if packed = [] then none else (unpackResourceMetadata mp packed).toOption.join) := by
  obtain ⟨hpacked, hr₀⟩ := setMetadataPacked_ok hmeta
  have hm : r₀.metadataPacked = if packed = [] then [] else metadataBlob packed := by
    rw [hr₀]
  by_cases hempty : packed = []
  · rw [if_pos hempty] at hm
    rw [if_pos hempty, hm]
    exact splitResourceMetadata_none (by rw [hadv, hm]; rfl) body
  · rw [if_neg hempty] at hm
    rw [if_neg hempty, hm]
    refine splitResourceMetadata_blob ?_ hpacked body
    rw [hadv, hm]
    rfl

section

variable (hmeta : (new sha source autoCompress).setMetadataPacked packed = .ok r₀)
  (hsize : source.body.length + r₀.metadataPacked.length ≤ maxEfficientSize)
  (hprepare : prepareOutboundForLink sha (some codec.outbound) random r₀ sdu = .ok r)
include hmeta hsize hprepare

lemma prepared_whole :
    0 < sdu ∧ ∃ r₁ randomHash payload compressed innerBlob,
      r₁ = r₀.whole (source.body.length + r₀.metadataPacked.length : ℕ) ∧
      compressBody codec.outbound autoCompress (r₀.metadataPacked ++ source.body) =
        .ok (payload, compressed) ∧
      codec.outbound.encrypt (randomHash.bytes ++ payload) = .ok innerBlob ∧
      count sdu.toNat innerBlob.length ≤ maxSegments ∧
      r = withSegment sha r₁ sdu.toNat source.body (r₁.wireBody source.body true) randomHash
        compressed innerBlob := by
  have hsdu : 0 < sdu := by
    by_contra hle
    rw [prepareOutboundForLink, if_pos (by omega)] at hprepare
    cases hprepare
  obtain ⟨-, hr₀⟩ := setMetadataPacked_ok hmeta
  have hbody : r₀.rawBody = some source.body := by
    rw [hr₀]
    exact rawBody_new sha source autoCompress _
  rw [prepareOutboundForLink_whole hbody hsize hsdu] at hprepare
  obtain ⟨randomHash, payload, compressed, innerBlob, -, hcompress, hencrypt, hcount, hr⟩ :=
    finishPrepareSegment_ok hprepare
  rw [wireBody_true] at hcompress
  refine ⟨hsdu, _, randomHash, payload, compressed, innerBlob, rfl, ?_, hencrypt, hcount, hr⟩
  rw [hr₀] at hcompress ⊢
  exact hcompress

/-- **A body that is not empty makes the round trip.** -/
lemma roundTrips_of_ne_nil (hne : source.body ≠ []) :
    RoundTrips sha codec.inbound mp r sdu source.body packed := by
  obtain ⟨hsdu, r₁, randomHash, payload, compressed, innerBlob, hr₁, hcompress, hencrypt, hcount,
    hr⟩ := prepared_whole hmeta hsize hprepare
  have hmetadata : r₁.metadataPacked = r₀.metadataPacked := by rw [hr₁]; rfl
  have hwire : r₁.wireBody source.body true = r₀.metadataPacked ++ source.body := by
    rw [wireBody_true, hmetadata]
  have hjoined : r.joinedParts sdu = innerBlob := by
    rw [hr]
    exact joinedParts_withSegment hsdu hcount
  have hsegments : r.segments.toNat = count sdu.toNat innerBlob.length := by
    rw [hr]
    exact toNat_segments hcount
  constructor
  · rw [hjoined, hr]
    rfl
  · rw [hsegments]
    refine ⟨?_, fun i hi => ⟨slice sdu.toNat innerBlob i, ?_, ?_⟩⟩
    · rw [hr]
      exact length_flatMap_range fun _ _ => sha.length_mapHash _ _
    · rw [hr]
      exact outboundCiphertextSlice_withSegment hsdu hcount hi
    · rw [hr]
      exact slice_hashmap_withSegment hi
  · have hhash : r.hash = sha.sum (r₀.metadataPacked ++ source.body ++ randomHash.bytes) := by
      rw [hr, ← hwire]
      rfl
    refine ⟨r₀.metadataPacked ++ source.body,
      sha.sum (r₀.metadataPacked ++ source.body ++ r.hash), ?_, ?_, ?_, ?_⟩
    · have htotal : r.totalSize = (source.body.length + r₀.metadataPacked.length : ℕ) := by
        rw [hr, hr₁]
        rfl
      rw [hjoined]
      refine assembleIncomingPayload_eq hcompress hencrypt ?_ ?_ ?_ hhash ?_ ?_
      · rw [hr]
        rfl
      · rw [hr]
        rfl
      · rw [hr]
        rfl
      · intro hpos
        rw [List.length_append] at hpos ⊢
        simp only [newResourceAdvertisement, getTotalSize, htotal]
        rw [if_pos (by omega), add_comm]
      · rw [List.length_append, autoCompressMaxSize]
        omega
    · refine splitResourceMetadata_of_packed hmeta ?_ source.body
      rw [hr, ← hmetadata]
      rfl
    · rw [incomingResourceProof, if_neg]
      · rfl
      · simp [newResourceAdvertisement, hhash, sha.length_sum, Sha256.size]
    · rw [hhash, hr, expectedProof_withSegment (by rw [hr₁]; rfl), if_neg hne, hwire]

lemma expectedProof_eq_none (hempty : source.body = []) : r.expectedProof sha = none := by
  obtain ⟨-, r₁, randomHash, payload, compressed, innerBlob, hr₁, -, -, -, hr⟩ :=
    prepared_whole hmeta hsize hprepare
  rw [hr, expectedProof_withSegment (by rw [hr₁]; rfl), if_pos hempty]

end

/-- **A resource in one segment makes the round trip exactly if its body is not empty.** -/
theorem roundTrips_iff (mp : Msgpack V)
    (hmeta : (new sha source autoCompress).setMetadataPacked packed = .ok r₀)
    (hsize : source.body.length + r₀.metadataPacked.length ≤ maxEfficientSize)
    (hprepare : prepareOutboundForLink sha (some codec.outbound) random r₀ sdu = .ok r) :
    RoundTrips sha codec.inbound mp r sdu source.body packed ↔ source.body ≠ [] := by
  constructor
  · rintro ⟨-, -, payload, proof, -, -, -, hproof⟩ hempty
    rw [expectedProof_eq_none hmeta hsize hprepare hempty] at hproof
    cases hproof
  · exact roundTrips_of_ne_nil hmeta hsize hprepare

end OneSegment

def plainCodec : TransferCodec where
  outbound := ⟨.ok, .ok⟩
  inbound := ⟨.ok, fun b n => .ok (b.take n)⟩
  decrypt_encrypt plain sealed h := h.symm
  decompress_compress b compressed h n := by rw [← Except.ok.inj h]

/-- Msgpack for maps with one entry, of two small numbers. -/
def onePair : Msgpack UInt8 where
  unmarshalAny
    | [0x81, k, v] => some (.ok (AList.singleton (.int k.toNat) v))
    | _ => some (.error "not a pair")
  unmarshalStrings _ := some (.error "not strings")

theorem roundTrips_threeBytes :
    ∃ r₀ r, (new Sha256.padded (.bytes [1, 2, 3]) true).setMetadataPacked [0x81, 7, 8] = .ok r₀ ∧
      prepareOutboundForLink Sha256.padded (some plainCodec.outbound) (.ok .zero) r₀ 4 =
        .ok r ∧
      unpackResourceMetadata onePair [0x81, 7, 8] = .ok (some (AList.singleton "7" 8)) ∧
      (RoundTrips Sha256.padded plainCodec.inbound onePair r 4 [1, 2, 3] [0x81, 7, 8] ↔
        [1, 2, 3] ≠ ([] : Bytes)) := by
  refine ⟨_, _, rfl, rfl, rfl, ?_⟩
  have hmeta : (new .padded (.bytes [1, 2, 3]) true).setMetadataPacked [0x81, 7, 8] =
    .ok _ := rfl
  exact roundTrips_iff _ hmeta (by decide)
    (rfl : prepareOutboundForLink _ (some plainCodec.outbound) (.ok .zero) _ 4 = _)

/-- **The sender of an empty body never accepts a proof**: the body does not make the round trip. -/
theorem not_roundTrips_empty :
    ∃ r, prepareOutboundForLink Sha256.padded (some plainCodec.outbound) (.ok .zero)
        (new Sha256.padded (.bytes []) true) 464 = .ok r ∧ r.expectedProof Sha256.padded = none ∧
      ¬ RoundTrips Sha256.padded plainCodec.inbound onePair r 464 [] [] := by
  have hok : (prepareOutboundForLink .padded (some plainCodec.outbound) (.ok .zero)
      (new .padded (.bytes []) true) 464).isOk = true := by
    decide +kernel
  obtain ⟨r, hr⟩ := Fallible.exists_of_isOk hok
  have hmeta : (new .padded (.bytes []) true).setMetadataPacked [] = .ok _ := rfl
  have hnone : r.expectedProof .padded = none :=
    expectedProof_eq_none hmeta (by decide) hr rfl
  refine ⟨r, hr, hnone, ?_⟩
  rintro ⟨-, -, payload, proof, -, -, -, hproof⟩
  rw [hnone] at hproof
  cases hproof

end Resource

end Reticulum

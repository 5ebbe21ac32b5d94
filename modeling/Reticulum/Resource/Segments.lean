import Reticulum.Resource.Def

/-!
# Segments of a large resource

A resource whose body and metadata exceed `maxEfficientSize` is sent in **segments**.  Seen as one
string, metadata followed by body, these are its chunks of width `maxEfficientSize`
(`metadata_append_rawSegment`).  Their number is kept in 16 bits; beyond that the sender stops
early: **`splitsLosslessly_iff`**, `hugeFile_truncated`.

Compression, encryption and the random source may differ from call to call; they are assumed not to
fail, and the ciphertext to stay within the number of parts that a segment may have
(`PrepareCall.Capable`).
-/

namespace Reticulum

open Resource.Constants Chunks List

structure PrepareCall where
  codec : OutboundCodec
  random : Except String RandomHash
  sdu : ℤ

structure PrepareCall.Capable (c : PrepareCall) : Prop where
  sdu_pos : 0 < c.sdu
  random_ok : ∃ randomHash, c.random = .ok randomHash
  compress_ok : ∀ b, ∃ compressed, c.codec.compress b = .ok compressed
  encrypt_ok : ∀ b, b.length ≤ randomHashSize + maxEfficientSize →
    ∃ innerBlob, c.codec.encrypt b = .ok innerBlob ∧
      count c.sdu.toNat innerBlob.length ≤ maxSegments

namespace Resource

variable {sha : Sha256} {c : PrepareCall} {r : Resource} {body : Bytes} {k : ℕ} {metadata : Bytes}

lemma maxEfficientSize_pos : 0 < maxEfficientSize := by decide

/-! ## The bytes of a segment -/

/-- The part of the body that segment number `k`, counted from zero, takes. -/
def rawSegment (metaLen : ℕ) (body : Bytes) (k : ℕ) : Bytes :=
  (body.drop (k * maxEfficientSize - metaLen)).take
    (if k = 0 then maxEfficientSize - metaLen else maxEfficientSize)

/-- **The segments are the chunks of the metadata followed by the body.** -/
lemma metadata_append_rawSegment (hmeta : metadata.length ≤ maxEfficientSize) (body : Bytes)
    (k : ℕ) :
    (if k = 0 then metadata else []) ++ rawSegment metadata.length body k =
      slice maxEfficientSize (metadata ++ body) k := by
  rw [rawSegment, slice]
  by_cases hk : k = 0
  · simp [hk, take_append, take_of_length_le hmeta]
  · have hle : metadata.length ≤ k * maxEfficientSize :=
      hmeta.trans (Nat.le_mul_of_pos_left _ (Nat.pos_of_ne_zero hk))
    rw [if_neg hk, if_neg hk, nil_append, drop_append, drop_of_length_le hle, nil_append]

lemma segmentRange_eq {metaLen size : ℕ} (hmeta : metaLen ≤ maxEfficientSize)
    (hbig : maxEfficientSize < size + metaLen) (hk : k + 1 < 2 ^ 16)
    (hlt : k * maxEfficientSize < size + metaLen) :
    segmentRange ((maxEfficientSize : ℤ) - metaLen) size (.ofNat (k + 1)) =
      (((k * maxEfficientSize - metaLen : ℕ) : ℤ),
        ((min (if k = 0 then maxEfficientSize - metaLen else maxEfficientSize)
          (size - (k * maxEfficientSize - metaLen)) : ℕ) : ℤ)) := by
  cases k with
  | zero =>
    rw [segmentRange]
    ext
    · simp
    · push_cast
      omega
  | succ j =>
    have hindex : (UInt16.ofNat (j + 1 + 1)).toNat = j + 2 := by
      rw [UInt16.toNat_ofNat']
      omega
    have hne : UInt16.ofNat (j + 1 + 1) ≠ 1 := by
      intro h
      have := congrArg UInt16.toNat h
      rw [hindex] at this
      exact absurd this (by simp)
    have hsub : (UInt16.ofNat (j + 1 + 1) - 2).toNat = j := by
      rw [UInt16.toNat_sub]
      simp only [UInt16.reduceToNat]
      omega
    rw [segmentRange, if_neg hne, hsub]
    rw [Nat.succ_mul] at hlt ⊢
    simp only [Nat.succ_ne_zero, if_false]
    ext
    · omega
    · split_ifs <;> omega

/-! ## Preparing a segment -/

lemma exists_compressBody (hc : c.Capable) (autoCompress : Bool) (wireBody : Bytes) :
    ∃ payload compressed,
      compressBody c.codec autoCompress wireBody = .ok (payload, compressed) ∧
        payload.length ≤ wireBody.length := by
  obtain ⟨b, hb⟩ := hc.compress_ok wireBody
  rw [compressBody]
  split_ifs
  · rw [hb]
    simp only
    split_ifs with hlt
    · exact ⟨b, true, rfl, hlt.le⟩
    · exact ⟨wireBody, false, rfl, le_rfl⟩
  · exact ⟨wireBody, false, rfl, le_rfl⟩

lemma exists_finishPrepareSegment (sha : Sha256) (hc : c.Capable) {segmentBody : Bytes}
    {includeMeta : Bool} (hlen : (r.wireBody segmentBody includeMeta).length ≤ maxEfficientSize) :
    ∃ randomHash compressed innerBlob,
      finishPrepareSegment sha c.codec c.random r c.sdu.toNat segmentBody includeMeta =
        .ok (withSegment sha r c.sdu.toNat segmentBody (r.wireBody segmentBody includeMeta)
          randomHash compressed innerBlob) := by
  obtain ⟨randomHash, hrandom⟩ := hc.random_ok
  obtain ⟨payload, compressed, hcompress, hle⟩ :=
    exists_compressBody hc r.autoCompress (r.wireBody segmentBody includeMeta)
  obtain ⟨innerBlob, hencrypt, hcount⟩ := hc.encrypt_ok (randomHash.bytes ++ payload) (by
    rw [length_append, randomHash.length_bytes]
    omega)
  refine ⟨randomHash, compressed, innerBlob, ?_⟩
  refine (Fallible.bind_eq_of_ok hrandom _).trans ?_
  refine (Fallible.bind_eq_of_ok hcompress _).trans ?_
  refine (Fallible.bind_eq_of_ok hencrypt _).trans ?_
  rw [if_neg (by omega)]

lemma rawBody_withSegment (hbody : r.rawBody = some body) (hsplit : r.split) (sdu : ℕ)
    (segmentBody wireBody innerBlob : Bytes) (randomHash : RandomHash) (compressed : Bool) :
    (withSegment sha r sdu segmentBody wireBody randomHash compressed innerBlob).rawBody =
      some body := by
  rw [rawBody] at hbody ⊢
  simp only [withSegment, memory, hsplit] at hbody ⊢
  cases hfile : r.fileHandle with
  | some contents => simpa [hfile] using hbody
  | none =>
    rw [hfile] at hbody
    cases hsource : r.sourceData with
    | some b => simpa [hsource] using hbody
    | none =>
      cases hdata : r.data with
      | none => simp [hsource, hdata] at hbody
      | some b => simpa [hsource, hdata] using hbody

lemma totalSegments_eq {total : ℕ} (hpos : 0 < total) :
    ((total : ℤ) - 1).toNat / maxEfficientSize + 1 = count maxEfficientSize total := by
  rw [← Nat.add_div_right _ maxEfficientSize_pos]
  congr 1
  omega

lemma readRawBody_segment {metaLen : ℕ} (hbody : r.rawBody = some body)
    (hmeta : metaLen ≤ maxEfficientSize) (hbig : maxEfficientSize < body.length + metaLen)
    (hk : k + 1 < 2 ^ 16) (hlt : k * maxEfficientSize < body.length + metaLen) :
    let range := segmentRange ((maxEfficientSize : ℤ) - metaLen) body.length (.ofNat (k + 1))
    r.readRawBody range.1 range.2 = .ok (rawSegment metaLen body k) := by
  simp only [segmentRange_eq hmeta hbig hk hlt]
  rw [readRawBody_eq hbody (by omega), rawSegment]
  rw [← length_drop, ← take_take, take_length]

def atSegment (r : Resource) (total k : ℕ) : Resource :=
  { r with
    totalSize := total
    segmentIndex := .ofNat (k + 1)
    split := true
    totalSegments := .ofNat (count maxEfficientSize total) }

lemma toNat_index (hk : k + 1 < 2 ^ 16) : (UInt16.ofNat (k + 1)).toNat = k + 1 := by
  rw [UInt16.toNat_ofNat']
  omega

lemma index_eq_one (hk : k + 1 < 2 ^ 16) : UInt16.ofNat (k + 1) = 1 ↔ k = 0 := by
  rw [← UInt16.toNat_inj, toNat_index hk]
  simp

/-- **A call prepares the segment that the resource points at.** -/
lemma prepareOutboundForLink_split {total : ℕ} {sdu : ℤ} (hbody : r.rawBody = some body)
    (hmetadata : r.metadataPacked = metadata) (hmeta : metadata.length ≤ maxEfficientSize)
    (htotal : body.length + metadata.length = total) (hbig : maxEfficientSize < total)
    (hsize : total < 2 ^ 63)
    (hindex : (if r.segmentIndex = 0 then 1 else r.segmentIndex) = .ofNat (k + 1))
    (hk : k < (UInt16.ofNat (count maxEfficientSize total)).toNat) (hsdu : 0 < sdu)
    (out : OutboundCodec) (random : Except String RandomHash) :
    prepareOutboundForLink sha (some out) random r sdu =
      finishPrepareSegment sha out random (r.atSegment total k) sdu.toNat
        (rawSegment metadata.length body k) (decide (k = 0)) := by
  subst hmetadata
  have hint : int64 (body.length + r.metadataPacked.length) = total := by
    rw [int64_eq (by omega) (by omega)]
    omega
  have hlt16 : k + 1 < 2 ^ 16 := by
    have := (UInt16.ofNat (count maxEfficientSize total)).toNat_lt
    omega
  have hcount : k < count maxEfficientSize total := by
    rw [UInt16.toNat_ofNat'] at hk
    exact hk.trans_le (Nat.mod_le _ _)
  have hlt : k * maxEfficientSize < body.length + r.metadataPacked.length :=
    htotal ▸ mul_lt_of_lt_count hcount
  have hbody₁ : (r.atSegment total k).rawBody = some body := hbody
  have hread := readRawBody_segment hbody₁ hmeta (htotal ▸ hbig) hlt16 hlt
  have hvalid : ¬ (UInt16.ofNat (k + 1) < 1 ∨
      .ofNat (count maxEfficientSize total) < UInt16.ofNat (k + 1)) := by
    rw [UInt16.lt_iff_toNat_lt, UInt16.lt_iff_toNat_lt, toNat_index hlt16]
    simp only [UInt16.reduceToNat]
    omega
  rw [prepareOutboundForLink, if_neg (by omega)]
  refine (Fallible.bind_eq_of_ok (rawBodySize_eq hbody) _).trans ?_
  have hsplit : ¬ (total : ℤ) ≤ maxEfficientSize := by omega
  rw [hint, if_neg hsplit, hindex, prepareSplit]
  simp only [totalSegments_eq (show 0 < total by omega)]
  rw [if_neg hvalid, if_neg (by omega), ← decide_eq_decide.2 (index_eq_one hlt16)]
  exact Fallible.bind_eq_of_ok hread _

@[simp] lemma getD_appendNil (b : Bytes) : (appendNil b).getD [] = b := by
  rw [appendNil]
  split_ifs with h
  · exact h.symm
  · rfl

def segmentBytes (r : Resource) : Bytes :=
  r.wireBody (r.data.getD []) (decide (r.segmentIndex = 1))

/-- Segment number `k` is prepared, and the whole body is still at hand. -/
structure Prepared (metadata body : Bytes) (k : ℕ) (r : Resource) : Prop where
  rawBody : r.rawBody = some body
  metadataPacked : r.metadataPacked = metadata
  split : r.split = true
  segmentIndex : r.segmentIndex = .ofNat (k + 1)
  totalSegments : r.totalSegments =
    .ofNat (count maxEfficientSize (body.length + metadata.length))
  data : r.data = appendNil (rawSegment metadata.length body k)

lemma wireBody_rawSegment (hmetadata : r.metadataPacked = metadata)
    (hmeta : metadata.length ≤ maxEfficientSize) (body : Bytes) (k : ℕ) :
    r.wireBody (rawSegment metadata.length body k) (decide (k = 0)) =
      slice maxEfficientSize (metadata ++ body) k := by
  rw [← metadata_append_rawSegment hmeta]
  by_cases hk : k = 0
  · simp [hk, hmetadata]
  · simp [hk]

section Split

variable {metadata : Bytes}

/-- **A call that can succeed prepares the segment that the resource points at.** -/
lemma exists_prepared (hc : c.Capable) (hbody : r.rawBody = some body)
    (hmetadata : r.metadataPacked = metadata) (hmeta : metadata.length ≤ maxEfficientSize)
    (hbig : maxEfficientSize < body.length + metadata.length)
    (hsize : body.length + metadata.length < 2 ^ 63)
    (hindex : (if r.segmentIndex = 0 then 1 else r.segmentIndex) = .ofNat (k + 1))
    (hk : k < (UInt16.ofNat (count maxEfficientSize (body.length + metadata.length))).toNat) :
    ∃ r', prepareOutboundForLink sha (some c.codec) c.random r c.sdu = .ok r' ∧
      Prepared metadata body k r' := by
  rw [prepareOutboundForLink_split hbody hmetadata hmeta rfl hbig hsize hindex hk hc.sdu_pos]
  have hlen : ((r.atSegment (body.length + metadata.length) k).wireBody
      (rawSegment metadata.length body k) (decide (k = 0))).length ≤ maxEfficientSize := by
    rw [wireBody_rawSegment (r := r.atSegment _ k) hmetadata hmeta, length_slice]
    exact min_le_left _ _
  obtain ⟨randomHash, compressed, innerBlob, hfinish⟩ := exists_finishPrepareSegment sha hc hlen
  refine ⟨_, hfinish, ?_, hmetadata, rfl, rfl, rfl, rfl⟩
  exact rawBody_withSegment (r := r.atSegment _ k) hbody rfl _ _ _ _ _ _

lemma Prepared.next (h : Prepared metadata body k r) (hc : c.Capable)
    (hmeta : metadata.length ≤ maxEfficientSize)
    (hbig : maxEfficientSize < body.length + metadata.length)
    (hsize : body.length + metadata.length < 2 ^ 63)
    (hk : k + 1 < (UInt16.ofNat (count maxEfficientSize (body.length + metadata.length))).toNat) :
    ∃ r', prepareNextOutboundSegment sha (some c.codec) c.random r c.sdu = .ok r' ∧
      Prepared metadata body (k + 1) r' := by
  have hlt16 : k + 1 + 1 < 2 ^ 16 := by
    have := (UInt16.ofNat (count maxEfficientSize
      (body.length + metadata.length))).toNat_lt
    omega
  have hmore : ¬ ((!r.split) ∨ r.totalSegments ≤ r.segmentIndex) := by
    rw [h.split, h.totalSegments, h.segmentIndex, UInt16.le_iff_toNat_le, toNat_index (by omega)]
    simp only [Bool.not_true, Bool.false_eq_true, false_or]
    omega
  have hindex : r.segmentIndex + 1 = .ofNat (k + 1 + 1) := by
    rw [h.segmentIndex]
    exact (UInt16.ofNat_add (k + 1) 1).symm
  have hne : UInt16.ofNat (k + 1 + 1) ≠ 0 := by
    intro h0
    have := congrArg UInt16.toNat h0
    rw [toNat_index hlt16] at this
    cases this
  rw [prepareNextOutboundSegment, if_neg hmore]
  refine exists_prepared hc ?_ ?_ hmeta hbig hsize ?_ hk
  · exact h.rawBody
  · exact h.metadataPacked
  · simp only [hindex, if_neg hne]

lemma Prepared.segmentBytes (h : Prepared metadata body k r) (hk : k + 1 < 2 ^ 16)
    (hmeta : metadata.length ≤ maxEfficientSize) :
    r.segmentBytes = slice maxEfficientSize (metadata ++ body) k := by
  rw [Resource.segmentBytes, h.data, getD_appendNil, h.segmentIndex,
    decide_eq_decide.2 (index_eq_one hk), wireBody_rawSegment h.metadataPacked hmeta]

end Split

/-! ## All segments -/

def prepareSegments (sha : Sha256) (call : ℕ → PrepareCall) (r : Resource) :
    ℕ → Except String Resource
  | 0 => prepareOutboundForLink sha (some (call 0).codec) (call 0).random r (call 0).sdu
  | k + 1 => do
    let r ← prepareSegments sha call r k
    prepareNextOutboundSegment sha (some (call (k + 1)).codec) (call (k + 1)).random r
      (call (k + 1)).sdu

def segmentsNeeded (total : ℕ) : ℕ := max 1 (count maxEfficientSize total)

/-- `s` is segment number `k` of `n`, with as much of a body of `size` bytes as it is to carry. -/
structure IsSegment (metaLen : ℕ) (size : ℤ) (n k : ℕ) (s : Resource) : Prop where
  segmentIndex : s.segmentIndex.toNat = k + 1
  totalSegments : s.totalSegments.toNat = n
  length_data : ((s.data.getD []).length : ℤ) =
    (segmentRange (maxEfficientSize - metaLen) size s.segmentIndex).2
  length_le : s.segmentBytes.length ≤ maxEfficientSize

/-- **Segmentation is lossless**: a resource is prepared in as many segments as it needs, and their
bytes are the metadata followed by the file. -/
def SplitsLosslessly (sha : Sha256) (call : ℕ → PrepareCall) (r : Resource) (file : Bytes) : Prop :=
  ∃ segments : ℕ → Resource,
    r.rawBodySize = .ok file.length ∧
    (∀ k < segmentsNeeded (file.length + r.metadataPacked.length),
      prepareSegments sha call r k = .ok (segments k) ∧
        IsSegment r.metadataPacked.length file.length
          (segmentsNeeded (file.length + r.metadataPacked.length)) k (segments k)) ∧
    (range (segmentsNeeded (file.length + r.metadataPacked.length))).flatMap
      (fun k => (segments k).segmentBytes) = r.metadataPacked ++ file

variable {call : ℕ → PrepareCall}

/-- **All segments are prepared, one after another.** -/
lemma exists_prepareSegments (sha : Sha256) (hcall : ∀ k, (call k).Capable)
    (hbody : r.rawBody = some body)
    (hindex : r.segmentIndex = 0) (hmeta : r.metadataPacked.length ≤ maxEfficientSize)
    (hbig : maxEfficientSize < body.length + r.metadataPacked.length)
    (hsize : body.length + r.metadataPacked.length < 2 ^ 63)
    (hk : k < (UInt16.ofNat (count maxEfficientSize
      (body.length + r.metadataPacked.length))).toNat) :
    ∃ r', prepareSegments sha call r k = .ok r' ∧ Prepared r.metadataPacked body k r' := by
  induction k with
  | zero =>
    refine exists_prepared (hcall 0) hbody rfl hmeta hbig hsize ?_ hk
    rw [if_pos hindex]
    rfl
  | succ k ih =>
    obtain ⟨r', hr', hprepared⟩ := ih (by omega)
    obtain ⟨r'', hr'', hnext⟩ := hprepared.next (hcall (k + 1)) hmeta hbig hsize hk
    exact ⟨r'', (Fallible.bind_eq_of_ok hr' _).trans hr'', hnext⟩

lemma isSegment_of_prepared {s : Resource} {n : ℕ} (h : Prepared metadata body k s)
    (hmeta : metadata.length ≤ maxEfficientSize)
    (hbig : maxEfficientSize < body.length + metadata.length)
    (hn : count maxEfficientSize (body.length + metadata.length) = n) (hn16 : n < 2 ^ 16)
    (hk : k < n) : IsSegment metadata.length body.length n k s := by
  have hlt := mul_lt_of_lt_count (hn ▸ hk)
  refine ⟨?_, ?_, ?_, ?_⟩
  · rw [h.segmentIndex, toNat_index (by omega)]
  · rw [h.totalSegments, UInt16.toNat_ofNat']
    omega
  · rw [h.segmentIndex, segmentRange_eq hmeta hbig (by omega) hlt, h.data, getD_appendNil,
      rawSegment, length_take, length_drop]
  · rw [h.segmentBytes (by omega) hmeta, length_slice]
    exact min_le_left _ _

lemma splitsLosslessly_of_lt (hcall : ∀ k, (call k).Capable) (hbody : r.rawBody = some body)
    (hindex : r.segmentIndex = 0) (hmeta : r.metadataPacked.length ≤ maxEfficientSize)
    (hbig : maxEfficientSize < body.length + r.metadataPacked.length)
    (hsize : body.length + r.metadataPacked.length ≤ maxSegments * maxEfficientSize) :
    SplitsLosslessly sha call r body := by
  generalize hn : count maxEfficientSize (body.length + r.metadataPacked.length) = n
  have hn16 : n < 2 ^ 16 :=
    Nat.lt_succ_of_le (hn ▸ (count_le_iff maxEfficientSize_pos).2 hsize)
  have hneeded : segmentsNeeded (body.length + r.metadataPacked.length) = n := by
    have : ¬ n ≤ 0 := by
      rw [← hn, count_le_iff maxEfficientSize_pos]
      omega
    rw [segmentsNeeded]
    omega
  have hprepared : ∀ k, ∃ s, k < n → prepareSegments sha call r k = .ok s ∧
      Prepared r.metadataPacked body k s := by
    intro k
    by_cases hk : k < n
    · have hsmall : body.length + r.metadataPacked.length < 2 ^ 63 :=
        hsize.trans_lt (by decide)
      obtain ⟨s, hs⟩ := exists_prepareSegments sha hcall hbody hindex hmeta hbig hsmall
        (by rw [hn, UInt16.toNat_ofNat', Nat.mod_eq_of_lt hn16]; exact hk)
      exact ⟨s, fun _ => hs⟩
    · exact ⟨r, fun h => absurd h hk⟩
  choose segments hsegments using hprepared
  refine ⟨segments, rawBodySize_eq hbody, ?_, ?_⟩
  · rw [hneeded]
    intro k hk
    obtain ⟨hok, hs⟩ := hsegments k hk
    exact ⟨hok, isSegment_of_prepared hs hmeta hbig hn hn16 hk⟩
  · have hbytes : ∀ k ∈ range n, (segments k).segmentBytes =
        slice maxEfficientSize (r.metadataPacked ++ body) k := by
      intro k hk
      have hk := mem_range.1 hk
      exact (hsegments k hk).2.segmentBytes (by omega) hmeta
    rw [hneeded, flatMap_congr hbytes, ← hn, add_comm, ← length_append]
    exact flatMap_slice maxEfficientSize_pos _

lemma splitsLosslessly_whole (hcall : ∀ k, (call k).Capable) (hbody : r.rawBody = some body)
    (hsize : body.length + r.metadataPacked.length ≤ maxEfficientSize) :
    SplitsLosslessly sha call r body := by
  have hneeded : segmentsNeeded (body.length + r.metadataPacked.length) = 1 := by
    have := (count_le_iff maxEfficientSize_pos).2 (hsize.trans_eq (one_mul _).symm)
    rw [segmentsNeeded]
    omega
  generalize hr₁ : r.whole (body.length + r.metadataPacked.length : ℕ) = r₁
  have hwire : r₁.wireBody body true = r.metadataPacked ++ body := by
    rw [wireBody_true, ← hr₁]
    rfl
  have hlen : (r₁.wireBody body true).length ≤ maxEfficientSize := by
    rw [hwire, length_append]
    omega
  obtain ⟨randomHash, compressed, innerBlob, hfinish⟩ :=
    exists_finishPrepareSegment sha (hcall 0) hlen
  generalize hs : withSegment sha r₁ _ body _ randomHash compressed innerBlob = s at hfinish
  have hbytes : s.segmentBytes = r.metadataPacked ++ body := by
    rw [← hs, ← hr₁]
    simp [segmentBytes, withSegment, whole]
  refine ⟨fun _ => s, rawBodySize_eq hbody, ?_, ?_⟩
  · rw [hneeded]
    rintro k hk
    obtain rfl : k = 0 := by omega
    refine ⟨?_, ?_, ?_, ?_, ?_⟩
    · rw [prepareSegments, prepareOutboundForLink_whole hbody hsize (hcall 0).sdu_pos, hr₁, hfinish]
    · rw [← hs, ← hr₁]
      rfl
    · rw [← hs, ← hr₁]
      rfl
    · rw [← hs, ← hr₁]
      simp only [withSegment, getD_appendNil, whole, segmentRange, if_true]
      omega
    · rw [hbytes, length_append]
      omega
  · rw [hneeded]
    simp [hbytes]

lemma le_of_splitsLosslessly {file : Bytes} (h : SplitsLosslessly sha call r file) :
    file.length + r.metadataPacked.length ≤ maxSegments * maxEfficientSize := by
  obtain ⟨segments, -, hsegments, -⟩ := h
  obtain ⟨-, hfirst⟩ := hsegments 0 (by rw [segmentsNeeded]; omega)
  have hlt := (segments 0).totalSegments.toNat_lt
  rw [hfirst.totalSegments, segmentsNeeded] at hlt
  exact (count_le_iff maxEfficientSize_pos).1 (by rw [maxSegments]; omega)

/-- **Segmentation is lossless exactly for the resources whose segments can be counted in 16
bits.** -/
theorem splitsLosslessly_iff {source : Source} {autoCompress : Bool} {packed : Bytes}
    (hcall : ∀ k, (call k).Capable)
    (hmeta : (new sha source autoCompress).setMetadataPacked packed = .ok r) :
    SplitsLosslessly sha call r source.body ↔
      source.body.length + r.metadataPacked.length ≤ maxSegments * maxEfficientSize := by
  obtain ⟨hpacked, hr⟩ := setMetadataPacked_ok hmeta
  have hbody : r.rawBody = some source.body := by
    rw [hr]
    exact rawBody_new sha source autoCompress _
  have hindex : r.segmentIndex = 0 := by
    rw [hr]
    rfl
  have hmetaLen : r.metadataPacked.length ≤ maxEfficientSize := by
    rw [hr]
    simp only [metadataMaxSize, maxEfficientSize] at hpacked ⊢
    split_ifs
    · simp
    · rw [length_metadataBlob]
      omega
  constructor
  · exact le_of_splitsLosslessly
  · intro hsize
    rcases lt_or_ge maxEfficientSize (source.body.length + r.metadataPacked.length) with
      hbig | hsmall
    · exact splitsLosslessly_of_lt hcall hbody hindex hmetaLen hbig hsize
    · exact splitsLosslessly_whole hcall hbody hsmall

/-! ## Two files -/

def plainCall : PrepareCall := ⟨⟨.ok, .ok⟩, .ok .zero, 464⟩

def plainCalls : ℕ → PrepareCall := fun _ => plainCall

lemma plainCall_capable : plainCall.Capable where
  sdu_pos := by decide
  random_ok := ⟨_, rfl⟩
  compress_ok b := ⟨b, rfl⟩
  encrypt_ok b hb := by
    refine ⟨b, rfl, (count_le_iff (by decide)).2 (hb.trans ?_)⟩
    decide

lemma plainCalls_capable (k : ℕ) : (plainCalls k).Capable := plainCall_capable

theorem splitsLosslessly_threeSegments :
    ∃ file r, file.length = 2 * maxEfficientSize ∧
      (new Sha256.padded (.readSeeker file) false).setMetadataPacked [0x80] = .ok r ∧
      SplitsLosslessly Sha256.padded plainCalls r file := by
  obtain ⟨file, hlen⟩ : ∃ file : Bytes, file.length = 2 * maxEfficientSize :=
    ⟨replicate _ 0, length_replicate⟩
  have hmeta : (new .padded (.readSeeker file) false).setMetadataPacked [0x80] =
      .ok { new .padded (.readSeeker file) false with
        metadataPacked := metadataBlob [0x80] } := rfl
  refine ⟨file, _, hlen, hmeta, ?_⟩
  refine (splitsLosslessly_iff plainCalls_capable hmeta).2 ?_
  simp only [Source.body, hlen]
  decide

/-- A file one byte longer than `2 ^ 16` segments is cut off after its first segment, which counts
as the last one. -/
lemma truncated_of_length {file : Bytes} (hlen : file.length = 2 ^ 16 * maxEfficientSize + 1) :
    ∃ r, prepareSegments .padded plainCalls
        (new .padded (.readSeeker file) false) 0 = .ok r ∧ r.totalSegments = 1 ∧
      r.segmentBytes = file.take maxEfficientSize ∧
      prepareSegments .padded plainCalls
        (new .padded (.readSeeker file) false) 1 = .error "no next segment" ∧
      ¬ SplitsLosslessly .padded plainCalls
        (new .padded (.readSeeker file) false) file := by
  generalize hr₀ : new .padded (.readSeeker file) false = r₀
  have hbody : r₀.rawBody = some file := by rw [← hr₀]; rfl
  have hindex : r₀.segmentIndex = 0 := by rw [← hr₀]; rfl
  have hmetadata : r₀.metadataPacked = [] := by rw [← hr₀]; rfl
  have htotal : file.length + r₀.metadataPacked.length = 2 ^ 16 * maxEfficientSize + 1 := by
    rw [hmetadata, hlen]
    rfl
  have hcount : UInt16.ofNat (count maxEfficientSize
      (file.length + r₀.metadataPacked.length)) = 1 := by
    rw [htotal]
    decide
  have hmeta : r₀.metadataPacked.length ≤ maxEfficientSize := by
    rw [hmetadata]
    exact Nat.zero_le _
  obtain ⟨r, hr, hprepared⟩ := exists_prepareSegments .padded
    plainCalls_capable hbody hindex hmeta
    (by rw [htotal]; decide) (by rw [htotal]; decide) (k := 0) (by rw [hcount]; decide)
  have hbytes := hprepared.segmentBytes (by decide) hmeta
  refine ⟨r, hr, hprepared.totalSegments.trans hcount, ?_, ?_, fun h => ?_⟩
  · rw [hbytes, hmetadata, slice]
    simp
  · refine (Fallible.bind_eq_of_ok hr _).trans ?_
    rw [prepareNextOutboundSegment, if_pos]
    rw [hprepared.totalSegments, hcount, hprepared.segmentIndex]
    exact .inr (by decide)
  · have := le_of_splitsLosslessly h
    rw [htotal] at this
    exact absurd this (by decide)

def hugeFile : Bytes := replicate (2 ^ 16 * maxEfficientSize + 1) 0

/-- **A huge file is truncated.** -/
theorem hugeFile_truncated :
    ∃ r, prepareSegments Sha256.padded plainCalls
        (new Sha256.padded (.readSeeker hugeFile) false) 0 = .ok r ∧ r.totalSegments = 1 ∧
      r.segmentBytes = hugeFile.take maxEfficientSize ∧
      prepareSegments Sha256.padded plainCalls
        (new Sha256.padded (.readSeeker hugeFile) false) 1 = .error "no next segment" ∧
      ¬ SplitsLosslessly Sha256.padded plainCalls
        (new Sha256.padded (.readSeeker hugeFile) false) hugeFile :=
  truncated_of_length length_replicate

end Resource

end Reticulum

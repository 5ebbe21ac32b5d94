import Mathlib.Order.Interval.Finset.Nat
import Reticulum.Link.IncomingResource
import Reticulum.Link.OutgoingResource

/-!
# How the hashmap gets to the receiver

The **hashmap** of a resource is too long for one packet.  The advertisement carries its first
segment, and **hashmap updates** (HMU) carry the others (`pkg/resource/resource.go`,
`pkg/link/incoming_resource.go`).  Both ends compute from the MDU of the link how many map hashes a
segment has.  So whatever updates arrive, in whatever order and however often, the receiver stays
synced: **`hashmap_synchronised`**.
-/

namespace Reticulum

open Resource.Constants List IncomingResourceAsm Option

/-! ## The segments of a hashmap -/

def ResourceAdvertisement.packedHashmap (adv : ResourceAdvertisement) (segment : ℕ) (linkMDU : ℤ) :
    Bytes :=
  let hashmapMaxLen := hashmapEntriesPerSegment linkMDU
  let hashmapStart := segment * hashmapMaxLen
  let hashmapEnd := min (hashmapStart + hashmapMaxLen) (adv.hashmap.length / mapHashLen)
  (adv.hashmap.take (hashmapEnd * mapHashLen)).drop (hashmapStart * mapHashLen)

namespace Resource

def advertised (r : Resource) (linkMDU : ℤ) : ResourceAdvertisement :=
  { r.newResourceAdvertisement with
    hashmap := r.newResourceAdvertisement.packedHashmap 0 linkMDU }

def partCount (r : Resource) : ℕ := r.segments.toNat

def entry (r : Resource) (i : ℕ) : Bytes := Chunks.slice mapHashLen r.hashmap i

def Mapped (r : Resource) : Prop := r.hashmap.length = r.partCount * mapHashLen

instance decidableMapped (r : Resource) : Decidable r.Mapped := inferInstanceAs (Decidable (_ = _))

lemma mapped_of_finishPrepareSegment {sha : Sha256} {codec : OutboundCodec}
    {random : Except String RandomHash} {r r' : Resource} {sdu : ℕ} {segmentBody : Bytes}
    {includeMeta : Bool}
    (h : finishPrepareSegment sha codec random r sdu segmentBody includeMeta = .ok r') :
    r'.Mapped := by
  obtain ⟨randomHash, payload, compressed, innerBlob, -, -, -, hcount, rfl⟩ :=
    finishPrepareSegment_ok h
  have hsegments : (UInt16.ofNat (Chunks.count sdu innerBlob.length)).toNat =
      Chunks.count sdu innerBlob.length := by
    simp only [maxSegments] at hcount
    exact UInt16.toNat_ofNat_of_lt' (by simp only [UInt16.size]; omega)
  simp only [Mapped, partCount, withSegment, hsegments]
  exact Chunks.length_flatMap_range fun i _ => sha.length_mapHash _ _

variable {r : Resource} {linkMDU : ℤ} {i s : ℕ}

lemma length_hashmap_div (h : r.Mapped) : r.hashmap.length / mapHashLen = r.partCount := by
  rw [h]
  exact Nat.mul_div_cancel _ (by decide)

lemma mapHashAt_of_lt (h : r.Mapped) (hi : i < r.partCount) : r.mapHashAt i = some (r.entry i) := by
  have hle : (i + 1) * mapHashLen ≤ r.partCount * mapHashLen := Nat.mul_le_mul_right _ hi
  rw [mapHashAt, h, if_neg (by rw [Nat.succ_mul] at hle; omega)]
  rfl

lemma length_entry (h : r.Mapped) (hi : i < r.partCount) : (r.entry i).length = mapHashLen := by
  have hle : (i + 1) * mapHashLen ≤ r.partCount * mapHashLen := Nat.mul_le_mul_right _ hi
  rw [Nat.succ_mul] at hle
  rw [entry, Chunks.length_slice, h]
  omega

lemma slice_piece (b : Bytes) {start n k : ℕ} (hk : k < n) :
    Chunks.slice mapHashLen ((b.drop (start * mapHashLen)).take (n * mapHashLen)) k =
      Chunks.slice mapHashLen b (start + k) := by
  have hle : (k + 1) * mapHashLen ≤ n * mapHashLen := Nat.mul_le_mul_right _ hk
  rw [Nat.succ_mul] at hle
  unfold Chunks.slice
  rw [drop_take, take_take, drop_drop, add_mul]
  congr 1
  omega

/-- **The map hashes in a segment**: those from the number of the segment times the width of a
segment on, as far as there are any. -/
lemma mapHashesOf_hashmapSegment (h : r.Mapped) (linkMDU : ℤ) (s : ℕ) :
    mapHashesOf (r.hashmapSegment linkMDU s) =
      (range' (s * hashmapEntriesPerSegment linkMDU)
        (min (hashmapEntriesPerSegment linkMDU)
          (r.partCount - s * hashmapEntriesPerSegment linkMDU))).map r.entry := by
  generalize hE : hashmapEntriesPerSegment linkMDU = E
  simp only [hashmapSegment, hE, length_hashmap_div h]
  split
  · rename_i hend
    rw [Nat.sub_eq_zero_of_le hend, Nat.min_zero]
    rfl
  · generalize hn : min E (r.partCount - s * E) = n
    have hcount : min (s * E + E) r.partCount - s * E = n := by omega
    have hlen : ((r.hashmap.drop (s * E * mapHashLen)).take (n * mapHashLen)).length =
        n * mapHashLen := by
      have hle : (s * E + n) * mapHashLen ≤ r.partCount * mapHashLen :=
        Nat.mul_le_mul_right _ (by omega)
      rw [add_mul] at hle
      rw [length_take, length_drop, h]
      omega
    rw [hcount, mapHashesOf, hlen, Nat.mul_div_cancel _ (by decide),
      range'_eq_map_range, List.map_map]
    refine map_congr_left fun k hk => ?_
    exact slice_piece _ (mem_range.1 hk)

lemma packedHashmap_eq (linkMDU : ℤ) :
    (r.advertised linkMDU).hashmap = r.hashmapSegment linkMDU 0 := by
  have hhashmap : r.newResourceAdvertisement.hashmap = r.hashmap := rfl
  simp only [advertised, ResourceAdvertisement.packedHashmap, hashmapSegment, hhashmap, zero_mul,
    zero_add, drop_zero]
  split
  · rename_i hnone
    rw [Nat.le_zero.1 hnone, Nat.min_zero, zero_mul, take_zero]
  · rfl

end Resource

/-! ## What the receiver knows -/

namespace IncomingResourceAsm

def known (rx : IncomingResourceAsm) : Finset ℕ :=
  (Finset.range rx.totalParts).filter fun i => (rx.mapHashes i).isSome

/-- **The receiver is synced**: the map hashes it has are those of the sender, and it counts them.
-/
structure Synced (entry : ℕ → Bytes) (rx : IncomingResourceAsm) : Prop where
  hash_ok : ∀ i mh, rx.mapHashes i = some mh → i < rx.totalParts ∧ mh = entry i
  height_eq : rx.hashmapHeight = rx.known.card

variable {entry : ℕ → Bytes} {rx : IncomingResourceAsm} {idx n : ℕ}

lemma mem_known : idx ∈ rx.known ↔ idx < rx.totalParts ∧ (rx.mapHashes idx).isSome := by
  simp [known]

lemma Synced.isSome_iff (h : Synced entry rx) : (rx.mapHashes idx).isSome ↔ idx ∈ rx.known := by
  rw [mem_known]
  constructor
  · intro hsome
    obtain ⟨mh, hmh⟩ := isSome_iff_exists.1 hsome
    exact ⟨(h.hash_ok idx mh hmh).1, hsome⟩
  · intro hknown
    exact hknown.2

lemma Synced.eq_entry (h : Synced entry rx) (hknown : idx ∈ rx.known) :
    rx.mapHashes idx = some (entry idx) := by
  obtain ⟨mh, hmh⟩ := isSome_iff_exists.1 (mem_known.1 hknown).2
  rw [hmh, (h.hash_ok idx mh hmh).2]

lemma Synced.setMapHash (h : Synced entry rx) (hidx : idx < rx.totalParts) :
    Synced entry (rx.setMapHash idx (entry idx)) ∧
      (rx.setMapHash idx (entry idx)).known = insert idx rx.known ∧
      (rx.setMapHash idx (entry idx)).totalParts = rx.totalParts := by
  obtain ⟨index, hset⟩ := rx.setMapHash_frame idx (entry idx)
  have hknown : (rx.setMapHash idx (entry idx)).known = insert idx rx.known := by
    ext i
    rw [hset]
    simp only [mem_known, Finset.mem_insert]
    rcases eq_or_ne i idx with rfl | hne
    · simp [hidx]
    · simp [hne]
  refine ⟨⟨?_, ?_⟩, hknown, by rw [hset]⟩
  · intro i mh hmh
    rw [hset] at hmh ⊢
    simp only at hmh ⊢
    rcases eq_or_ne i idx with rfl | hne
    · rw [Function.update_self] at hmh
      exact ⟨hidx, (some.inj hmh).symm⟩
    · rw [Function.update_of_ne hne] at hmh
      exact h.hash_ok i mh hmh
  · -- the height grows by one if the map hash was not known
    rw [hknown, hset]
    by_cases hmem : idx ∈ rx.known
    · have hsome := (mem_known.1 hmem).2
      rw [if_neg (by intro hnone; rw [hnone] at hsome; cases hsome), Finset.insert_eq_of_mem hmem,
        h.height_eq]
    · have hnone : rx.mapHashes idx = none := by
        rw [← not_isSome_iff_eq_none, h.isSome_iff]
        exact hmem
      rw [if_pos hnone, Finset.card_insert_of_notMem hmem, h.height_eq]

lemma Synced.setMapHashes (h : Synced entry rx) (idx n : ℕ) :
    Synced entry (rx.setMapHashes idx ((range' idx n).map entry)) ∧
      (rx.setMapHashes idx ((range' idx n).map entry)).known =
        rx.known ∪ .Ico idx (min (idx + n) rx.totalParts) ∧
      (rx.setMapHashes idx ((range' idx n).map entry)).totalParts = rx.totalParts := by
  induction n generalizing idx rx with
  | zero =>
    refine ⟨h, ?_, rfl⟩
    rw [Finset.Ico_eq_empty (by omega), Finset.union_empty]
    rfl
  | succ n ih =>
    rw [range'_succ, map_cons, setMapHashes]
    split
    · refine ⟨h, ?_, rfl⟩
      rw [Finset.Ico_eq_empty (by omega), Finset.union_empty]
    · rename_i hidx
      obtain ⟨hset, hknown, htotal⟩ := h.setMapHash (Nat.lt_of_not_le hidx)
      obtain ⟨hrest, hknown', htotal'⟩ := ih hset (idx + 1)
      refine ⟨hrest, ?_, htotal'.trans htotal⟩
      rw [hknown', hknown]
      ext i
      simp only [Finset.mem_union, Finset.mem_insert, Finset.mem_Ico]
      by_cases hi : i ∈ rx.known
      · simp [hi]
      · simp only [hi, or_false, false_or]
        omega

/-! ## Segments, in any order -/

def applySegment (r : Resource) (linkMDU : ℤ) (rx : IncomingResourceAsm) (s : ℕ) :
    IncomingResourceAsm :=
  rx.applyHashmapSegment s (r.hashmapSegment linkMDU s)

def start (r : Resource) (linkMDU : ℤ) (last : ℕ) : IncomingResourceAsm :=
  new (r.advertised linkMDU) (hashmapEntriesPerSegment linkMDU) last

structure Receives (r : Resource) (linkMDU : ℤ) (rx : IncomingResourceAsm) : Prop
    extends Synced r.entry rx where
  total : rx.totalParts = r.partCount
  segLen_eq : rx.segLen = hashmapEntriesPerSegment linkMDU

variable {r : Resource} {linkMDU : ℤ}

lemma partCount_le (r : Resource) : (r.partCount : ℤ) ≤ maxInt := by
  have hlt : r.partCount < 2 ^ 16 := r.segments.toNat_lt
  simp only [maxInt]
  omega

/-- **A segment adds its own map hashes to what is known**, and nothing else. -/
lemma Receives.applySegment (hr : r.Mapped) (h : Receives r linkMDU rx) (s : ℕ) :
    Receives r linkMDU (rx.applySegment r linkMDU s) ∧ ∀ i,
      i ∈ (rx.applySegment r linkMDU s).known ↔
        i ∈ rx.known ∨ i < r.partCount ∧ i / hashmapEntriesPerSegment linkMDU = s := by
  have hpos := hashmapEntriesPerSegment_pos linkMDU
  rw [IncomingResourceAsm.applySegment, applyHashmapSegment, h.segLen_eq]
  split
  · -- a segment whose index would overflow is far behind the last part
    rename_i hignored
    have hfar : (r.partCount : ℤ) < s * hashmapEntriesPerSegment linkMDU := by
      have hlt : maxInt < s * hashmapEntriesPerSegment linkMDU :=
        (Int.ediv_lt_iff_lt_mul (by omega)).1 (hignored.resolve_left (by omega))
      exact (partCount_le r).trans_lt hlt
    norm_cast at hfar
    refine ⟨h, fun i => (or_iff_left ?_).symm⟩
    rw [Nat.div_eq_iff hpos]
    omega
  · rw [Resource.mapHashesOf_hashmapSegment hr, Int.toNat_natCast]
    obtain ⟨hsynced, hknown, htotal⟩ := h.toSynced.setMapHashes
      (s * hashmapEntriesPerSegment linkMDU) (min (hashmapEntriesPerSegment linkMDU)
        (r.partCount - s * hashmapEntriesPerSegment linkMDU))
    refine ⟨⟨hsynced, htotal.trans h.total, ?_⟩, fun i => ?_⟩
    · obtain ⟨height, hashes, index, hframe⟩ := setMapHashes_frame
        ((range' (s * hashmapEntriesPerSegment linkMDU)
          (min (hashmapEntriesPerSegment linkMDU)
            (r.partCount - s * hashmapEntriesPerSegment linkMDU))).map r.entry) rx
        (s * hashmapEntriesPerSegment linkMDU)
      rw [hframe]
      exact h.segLen_eq
    · rw [hknown, h.total, Finset.mem_union, Finset.mem_Ico, Nat.div_eq_iff hpos]
      exact or_congr_right (by omega)

/-- **The advertisement starts a transfer that is synced**, with the first segment. -/
lemma receives_start (hr : r.Mapped) (linkMDU : ℤ) (last : ℕ) :
    Receives r linkMDU (start r linkMDU last) ∧ ∀ i, i ∈ (start r linkMDU last).known ↔
      i < r.partCount ∧ i / hashmapEntriesPerSegment linkMDU = 0 := by
  have hpos := hashmapEntriesPerSegment_pos linkMDU
  have hblank : Receives r linkMDU
      (blank (r.advertised linkMDU) (hashmapEntriesPerSegment linkMDU)) := by
    refine ⟨⟨?_, ?_⟩, ?_, ?_⟩
    · simp [blank]
    · simp [blank, known]
    · simp [blank, Resource.advertised, Resource.newResourceAdvertisement, Resource.partCount]
    · simp [blank, segLen, hpos.ne']
  obtain ⟨h, hknown⟩ := hblank.applySegment hr 0
  rw [applySegment, ← Resource.packedHashmap_eq] at h hknown
  refine ⟨⟨⟨h.hash_ok, h.height_eq⟩, h.total, h.segLen_eq⟩, fun i => (hknown i).trans ?_⟩
  simp [blank, known]

/-- Segments in request order, when the first `k` of them are known: each is the next one, or one
that has come before. -/
def RequestOrder : ℕ → List ℕ → Prop
  | _, [] => True
  | k, s :: segments => s ≤ k ∧ RequestOrder (max k (s + 1)) segments

lemma RequestOrder.exists_lt_iff {segments : List ℕ} {k : ℕ} (h : RequestOrder k segments) :
    ∃ k', ∀ s, s < k ∨ s ∈ segments ↔ s < k' := by
  induction segments generalizing k with
  | nil => exact ⟨k, by simp⟩
  | cons s segments ih =>
    obtain ⟨k', hk'⟩ := ih h.2
    refine ⟨k', fun i => ?_⟩
    have hs : s ≤ k := h.1
    have hnext : i < k ∨ i = s ↔ i < max k (s + 1) := by omega
    rw [← hk', ← hnext, mem_cons]
    tauto

lemma Receives.applySegments (hr : r.Mapped) (segments : List ℕ) (h : Receives r linkMDU rx) :
    Receives r linkMDU (Run.exec (.applySegment r linkMDU) rx segments) ∧ ∀ i,
      i ∈ (Run.exec (.applySegment r linkMDU) rx segments).known ↔
        i ∈ rx.known ∨ i < r.partCount ∧ i / hashmapEntriesPerSegment linkMDU ∈ segments := by
  induction segments generalizing rx with
  | nil => exact ⟨h, by simp [Run.exec]⟩
  | cons s segments ih =>
    obtain ⟨hnext, hknown⟩ := h.applySegment hr s
    obtain ⟨hrest, hknown'⟩ := ih hnext
    refine ⟨hrest, fun i => (hknown' i).trans ?_⟩
    rw [hknown, mem_cons]
    tauto

lemma known_eq_range_of_segments {E k count : ℕ} (hE : 0 < E)
    (h : ∀ i, i ∈ rx.known ↔ i < count ∧ i / E < k) : rx.known = .range (min (k * E) count) := by
  ext i
  rw [h, Nat.div_lt_iff_lt_mul hE, Finset.mem_range]
  omega

/-! ## The next request -/

lemma anchorHash_ok {noAnchor badAnchor : String} {anchor : Bytes}
    (h : rx.anchorHash noAnchor badAnchor = .ok anchor) :
    0 < rx.hashmapHeight ∧ anchor = (rx.mapHashes (rx.hashmapHeight - 1)).getD [] := by
  unfold anchorHash at h
  split at h
  · cases h
  simp only at h
  split at h
  · cases h
  · exact ⟨by omega, (Except.ok.inj h).symm⟩

lemma exists_unknown_of_selectRequests {l : List ℕ} (h : (rx.selectRequests n l).2) :
    ∃ pn ∈ l, rx.mapHashes pn = none := by
  induction l generalizing n with
  | nil => cases h
  | cons pn rest ih =>
    rw [selectRequests] at h
    split_ifs at h with hskip hknown hlast
    · obtain ⟨q, hq, hnone⟩ := ih h
      exact ⟨q, mem_cons_of_mem _ hq, hnone⟩
    · obtain ⟨q, hq, hnone⟩ := ih h
      exact ⟨q, mem_cons_of_mem _ hq, hnone⟩
    · exact ⟨pn, mem_cons_self, not_isSome_iff_eq_none.1 hknown⟩

lemma exists_unknown_of_nextRequests (h : rx.nextRequests.2) :
    ∃ pn < rx.totalParts, rx.mapHashes pn = none := by
  obtain ⟨pn, hmem, hnone⟩ := exists_unknown_of_selectRequests h
  rw [mem_range'_1] at hmem
  exact ⟨pn, by omega, hnone⟩

def Sends (rx : IncomingResourceAsm) (req : Request) : Prop :=
  rx.sendIncomingResourceReqNext = .ok (some req) ∨
    rx.sendIncomingResourceHMUPrefetch = .ok (some req)

/-- **What a request begins with**: the last map hash that is known if there are others to ask for,
and otherwise the sign that there is none. -/
lemma Sends.body {req : Request} (h : rx.Sends req) :
    (req.exhausted = false ∧ ∃ rest, req.body = hashmapNotExhausted :: rest) ∨
      req.exhausted ∧ 0 < rx.hashmapHeight ∧
        (rx.hashmapHeight < rx.totalParts ∨ ∃ pn < rx.totalParts, rx.mapHashes pn = none) ∧
        ∃ rest, req.body =
          hashmapExhausted :: (rx.mapHashes (rx.hashmapHeight - 1)).getD [] ++ rest := by
  rcases h with h | h
  · simp only [sendIncomingResourceReqNext] at h
    split_ifs at h with _ _ _ _ hexhausted
    · cases h
    · cases h
    · cases h
    · cases h
    · split at h
      · cases h
      · rename_i anchor hanchor
        obtain ⟨hpos, rfl⟩ := anchorHash_ok hanchor
        obtain rfl := some.inj (Except.ok.inj h)
        exact .inr ⟨rfl, hpos, .inr (exists_unknown_of_nextRequests hexhausted), _,
          append_assoc _ _ _⟩
    · obtain rfl := some.inj (Except.ok.inj h)
      exact .inl ⟨rfl, _, rfl⟩
  · rw [sendIncomingResourceHMUPrefetch] at h
    split_ifs at h with _ hheight
    · cases h
    · cases h
    · cases h
    · split at h
      · cases h
      · rename_i anchor hanchor
        obtain ⟨hpos, rfl⟩ := anchorHash_ok hanchor
        obtain rfl := some.inj (Except.ok.inj h)
        exact .inr ⟨rfl, hpos, .inl (by omega), _, append_assoc _ _ _⟩

lemma Receives.known_eq_range (h : Receives r linkMDU rx) (hknown : rx.known = .range n) :
    rx.hashmapHeight = n ∧ ∀ i, (rx.mapHashes i).isSome ↔ i < rx.hashmapHeight := by
  have hheight : rx.hashmapHeight = n := by rw [h.height_eq, hknown, Finset.card_range]
  refine ⟨hheight, fun i => ?_⟩
  rw [h.toSynced.isSome_iff, hknown, hheight, Finset.mem_range]

end IncomingResourceAsm

open IncomingResourceAsm in
/-- **Both ends agree on the hashmap.**  After the advertisement and any segments, in any order and
however often each:

* the receiver has the map hashes of the segments that came, and each is the sender's at that
  index;
* the height is the number of map hashes that are known;
* if the segments came in request order, the map hashes that are known are the first ones, and
  whatever parts have come meanwhile (`rx'`), the next request for map hashes begins with the last
  one that is known. -/
theorem hashmap_synchronised (r : Resource) (hr : r.Mapped) (linkMDU : ℤ) (last : ℕ)
    (segments : List ℕ) :
    let rx := Run.exec (applySegment r linkMDU) (start r linkMDU last) segments
    (∀ i mh, rx.mapHashes i = some mh → r.mapHashAt i = some mh) ∧
      (∀ i, (rx.mapHashes i).isSome = true ↔
        i < r.partCount ∧ i / hashmapEntriesPerSegment linkMDU ∈ 0 :: segments) ∧
      rx.hashmapHeight =
        ((Finset.range r.partCount).filter fun i => (rx.mapHashes i).isSome = true).card ∧
      (RequestOrder 1 segments →
        (∀ i, (rx.mapHashes i).isSome = true ↔ i < rx.hashmapHeight) ∧
          ∀ rx' : IncomingResourceAsm, rx'.mapHashes = rx.mapHashes →
            rx'.hashmapHeight = rx.hashmapHeight →
            ∀ req, rx'.Sends req → req.exhausted = true →
              ∃ anchor rest, r.mapHashAt (rx.hashmapHeight - 1) = some anchor ∧
                req.body = hashmapExhausted :: anchor ++ rest) := by
  intro rx
  obtain ⟨hstart, hfirst⟩ := receives_start hr linkMDU last
  obtain ⟨h, hrest⟩ : Receives r linkMDU rx ∧ _ := hstart.applySegments hr segments
  have hknown : ∀ i, i ∈ rx.known ↔
      i < r.partCount ∧ i / hashmapEntriesPerSegment linkMDU ∈ 0 :: segments := by
    intro i
    rw [hrest, hfirst, mem_cons]
    tauto
  have hash_ok : ∀ i mh, rx.mapHashes i = some mh → r.mapHashAt i = some mh := by
    intro i mh hmh
    obtain ⟨hlt, rfl⟩ := h.hash_ok i mh hmh
    exact Resource.mapHashAt_of_lt hr (h.total ▸ hlt)
  refine ⟨hash_ok, fun i => ?_, ?_, fun horder => ?_⟩
  · rw [h.toSynced.isSome_iff, hknown]
  · rw [h.height_eq, known, h.total]
  · obtain ⟨k, hk⟩ := horder.exists_lt_iff
    have hrange := known_eq_range_of_segments (hashmapEntriesPerSegment_pos linkMDU) fun i => by
      rw [hknown, mem_cons, ← Nat.lt_one_iff, hk]
    obtain ⟨-, hfront⟩ := h.known_eq_range hrange
    refine ⟨hfront, fun rx' hhashes hheight req hreq hex => ?_⟩
    obtain ⟨hnot, -⟩ | ⟨-, hpos, -, rest, hbody⟩ := hreq.body
    · rw [hnot] at hex
      cases hex
    rw [hhashes, hheight] at hbody
    obtain ⟨mh, hmh⟩ := isSome_iff_exists.1 ((hfront (rx.hashmapHeight - 1)).2 (by omega))
    rw [hmh] at hbody
    exact ⟨mh, rest, hash_ok _ _ hmh, hbody⟩

def threeParts : Resource :=
  { Resource.new .padded (.bytes []) false with
    segments := 3
    hashmap := [1, 1, 1, 1, 2, 2, 2, 2, 3, 3, 3, 3] }

open IncomingResourceAsm in
/-- On a link with a tiny MDU each map hash comes in a segment of its own.  The second one comes
twice, and then the third is asked for after it. -/
theorem threeParts_synchronised :
    let rx := Run.exec (applySegment threeParts 100) (start threeParts 100 0) [1, 1]
    rx.mapHashes 1 = some [2, 2, 2, 2] ∧ rx.mapHashes 2 = none ∧
      ∃ req, rx.Sends req ∧ req.exhausted = true ∧
        ∃ rest, req.body = hashmapExhausted :: [2, 2, 2, 2] ++ rest := by
  intro rx
  obtain ⟨hash_ok, hknown, -, hordered⟩ :=
    hashmap_synchronised threeParts (by decide) 100 0 [1, 1]
  obtain ⟨mh, hmh⟩ := isSome_iff_exists.1 ((hknown 1).2 (by decide))
  obtain rfl : [2, 2, 2, 2] = mh := some.inj (hash_ok 1 mh hmh)
  have hnone : ¬ (rx.mapHashes 2).isSome := fun hsome => absurd ((hknown 2).1 hsome) (by decide)
  obtain ⟨req, hreq, hex⟩ : ∃ req, rx.Sends req ∧ req.exhausted = true := ⟨_, .inl rfl, rfl⟩
  obtain ⟨anchor, rest, hanchor, hbody⟩ :=
    (hordered ⟨le_rfl, by decide, trivial⟩).2 rx rfl rfl req hreq hex
  obtain rfl : [2, 2, 2, 2] = anchor := some.inj hanchor
  exact ⟨hmh, not_isSome_iff_eq_none.1 hnone, req, hreq, hex, rest, hbody⟩

end Reticulum

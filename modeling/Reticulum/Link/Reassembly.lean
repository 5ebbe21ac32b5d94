import Reticulum.Link.IncomingResource

/-!
# Reassembly of an incoming resource

A receiver that knows the map hashes of a sender puts the parts of a ciphertext back together, in
whatever order and however often they arrive, as long as no two parts share a map hash and what
arrives comes from that sender (`PartSource.Genuine`): **`reassembles_of_genuine`**.
-/

namespace Reticulum

variable {i : ℕ} {idx : ℕ}

open Resource.Constants List IncomingResourceAsm

/-- A ciphertext cut into parts with pairwise distinct map hashes. -/
structure PartSource (sha : Sha256) where
  ciphertext : Bytes
  sdu : ℕ
  randomHash : Bytes
  sdu_pos : 0 < sdu
  length_randomHash : randomHash.length = randomHashSize
  distinct : ∀ i < Chunks.count sdu ciphertext.length, ∀ j < Chunks.count sdu ciphertext.length,
    sha.mapHash randomHash (Chunks.slice sdu ciphertext i) =
      sha.mapHash randomHash (Chunks.slice sdu ciphertext j) → i = j

namespace PartSource

variable {sha : Sha256} (src : PartSource sha)

def count : ℕ := Chunks.count src.sdu src.ciphertext.length

def part (i : ℕ) : Bytes := Chunks.slice src.sdu src.ciphertext i

def hash (i : ℕ) : Bytes := sha.mapHash src.randomHash (src.part i)

def HashesFrom (base : ℕ) (b : Bytes) : Prop :=
  ∀ k < b.length / mapHashLen, base + k < src.count →
    Chunks.slice mapHashLen b k = src.hash (base + k)

instance (base : ℕ) (b : Bytes) : Decidable (src.HashesFrom base b) :=
  inferInstanceAs (Decidable (∀ k < b.length / mapHashLen, base + k < src.count →
    Chunks.slice mapHashLen b k = src.hash (base + k)))

structure Describes (adv : ResourceAdvertisement) : Prop where
  parts : adv.parts = src.count
  transferSize : adv.transferSize = src.ciphertext.length
  randomHash : adv.randomHash = src.randomHash
  hashmap : src.HashesFrom 0 adv.hashmap

/-- What the event brings comes from the sender: its advertisement, one of its parts, or a segment
of its hashmap, counted in segments for the MDU of the link. -/
def Genuine (mdu : ℤ) : IncomingEvent → Prop
  | .advertisement adv _ => src.Describes adv
  | .part data => ∃ i < src.count, data = src.part i
  | .hashmapUpdate _ segment b => src.HashesFrom (segment.toNat * hashmapEntriesPerSegment mdu) b
  | _ => True

lemma hash_inj {j : ℕ} (hi : i < src.count) (hj : j < src.count) (h : src.hash i = src.hash j) :
    i = j := src.distinct i hi j hj h

lemma part_ne_nil (hi : i < src.count) : src.part i ≠ [] := Chunks.slice_ne_nil hi

lemma flatMap_part : (range src.count).flatMap src.part = src.ciphertext :=
  Chunks.flatMap_slice src.sdu_pos src.ciphertext

lemma sum_length_part :
    ((range src.count).map fun i => (src.part i).length).sum = src.ciphertext.length := by
  rw [← src.flatMap_part, length_flatMap]

end PartSource

namespace IncomingResourceAsm

variable {sha : Sha256} {src : PartSource sha} {rx : IncomingResourceAsm} {entries : ℕ}

/-- **The transfer is the sender's**: every slot is empty or holds its part, the byte counter is the
number of bytes in the slots, and the transfer is complete exactly when every slot is filled. -/
structure Faithful (src : PartSource sha) (rx : IncomingResourceAsm) : Prop where
  slots : ∀ i < src.count, rx.partSlots i = none ∨ rx.partSlots i = some (src.part i)
  bytes : rx.bytesReceived =
    ((range src.count).map fun i => ((rx.partSlots i).getD []).length).sum
  complete : rx.incomingTransferComplete = true ↔ ∀ i < src.count, rx.partSlots i ≠ none

structure Matches (src : PartSource sha) (entries : ℕ) (rx : IncomingResourceAsm) : Prop where
  total : rx.totalParts = src.count
  size : rx.adv.transferSize = src.ciphertext.length
  random : rx.adv.randomHash = src.randomHash
  segLen : rx.segLen = entries
  hash_ok : ∀ i mh, rx.mapHashes i = some mh → i < src.count ∧ mh = src.hash i
  index_ok : ∀ mh i, i ∈ rx.hashIndex mh → i < src.count ∧ mh = src.hash i
  slot_ok : ∀ i b, rx.partSlots i = some b → b = src.part i
  bytes_ok : rx.bytesReceived = rx.filledBytes

/-! ## What follows from the invariant -/

section

variable (h : Matches src entries rx)
include h

lemma Matches.filled (hall : ∀ i < src.count, rx.partSlots i ≠ none) :
    ∀ i < src.count, (rx.partSlots i).getD [] = src.part i := by
  intro i hi
  obtain ⟨b, hb⟩ := Option.ne_none_iff_exists'.1 (hall i hi)
  rw [hb]
  exact h.slot_ok i b hb

lemma Matches.faithful : Faithful src rx where
  slots i _ := by
    cases hslot : rx.partSlots i with
    | none => exact .inl rfl
    | some b => exact .inr (by rw [h.slot_ok i b hslot])
  bytes := by rw [h.bytes_ok, filledBytes, h.total]
  complete := by
    rw [incomingTransferComplete_iff, h.total, h.size]
    refine and_iff_left_of_imp ?_
    intro hall
    rw [filledBytes, h.total, ← src.sum_length_part]
    congr 2
    refine map_congr_left ?_
    intro i hi
    rw [h.filled hall i (mem_range.1 hi)]

/-- **The filled slots join to the ciphertext.** -/
lemma Matches.concat (hall : ∀ i < src.count, rx.partSlots i ≠ none) :
    rx.concatIncomingParts = src.ciphertext := by
  rw [concatIncomingParts, h.total, ← src.flatMap_part]
  exact flatMap_congr fun i hi => h.filled hall i (mem_range.1 hi)

/-- **A genuine part finds its own slot**, if it finds one. -/
lemma Matches.findSlot (hi : i < src.count)
    (hslot : rx.findSlot (src.hash i) = some idx) : idx = i := by
  obtain ⟨-, -, hin | hmap⟩ := findSlot_spec hslot
  · obtain ⟨hidx, heq⟩ := h.index_ok _ _ hin
    exact (src.hash_inj hi hidx heq).symm
  · obtain ⟨hidx, heq⟩ := h.hash_ok _ _ hmap
    exact (src.hash_inj hi hidx heq).symm

/-! ## What keeps the invariant -/

lemma Matches.issue (idx : List ℕ) (exhausted : Bool) :
    Matches src entries (rx.issue idx exhausted) :=
  { h with }

lemma Matches.cancelRequest (idx : List ℕ) (exhausted : Bool) :
    Matches src entries (rx.cancelRequest idx exhausted) :=
  { h with }

lemma Matches.stall : Matches src entries rx.stall :=
  { h with }

lemma Matches.growIncomingResourceWindow : Matches src entries rx.growIncomingResourceWindow := by
  rw [IncomingResourceAsm.growIncomingResourceWindow]
  split_ifs
  · exact { h with }
  · exact h

lemma Matches.storePart (hi : i < src.count)
    (hslot : rx.partSlots i = none) : Matches src entries (rx.storePart i (src.part i)) := { h with
  slot_ok := fun j b hb => by
    simp only [IncomingResourceAsm.storePart] at hb
    rcases eq_or_ne j i with rfl | hne
    · rw [Function.update_self] at hb
      exact (Option.some.inj hb).symm
    · rw [Function.update_of_ne hne] at hb
      exact h.slot_ok j b hb
  bytes_ok := by
    rw [filledBytes_storePart (h.total.symm ▸ hi) hslot, ← h.bytes_ok]
    rfl }

lemma Matches.indexMapHash (hidx : idx < src.count) :
    Matches src entries (rx.indexMapHash idx (src.hash idx)) := by
  rw [IncomingResourceAsm.indexMapHash]
  split_ifs
  · exact h
  · refine { h with index_ok := fun mh i hi => ?_ }
    simp only at hi
    rcases eq_or_ne mh (src.hash idx) with rfl | hne
    · rw [Function.update_self, mem_append, mem_singleton] at hi
      rcases hi with hi | rfl
      · exact h.index_ok _ i hi
      · exact ⟨hidx, rfl⟩
    · rw [Function.update_of_ne hne] at hi
      exact h.index_ok mh i hi

lemma Matches.setMapHash (hidx : idx < src.count) :
    Matches src entries (rx.setMapHash idx (src.hash idx)) := by
  refine indexMapHash ?_ hidx
  refine { h with hash_ok := fun i mh hmh => ?_ }
  simp only at hmh
  rcases eq_or_ne i idx with rfl | hne
  · rw [Function.update_self] at hmh
    exact ⟨hidx, (Option.some.inj hmh).symm⟩
  · rw [Function.update_of_ne hne] at hmh
    exact h.hash_ok i mh hmh

lemma Matches.setMapHashes {l : List Bytes}
    (hl : ∀ k mh, l[k]? = some mh → idx + k < src.count → mh = src.hash (idx + k)) :
    Matches src entries (rx.setMapHashes idx l) := by
  induction l generalizing rx idx with
  | nil => exact h
  | cons mh rest ih =>
    rw [setMapHashes]
    split_ifs with htotal
    · exact h
    · have hidx : idx < src.count := by
        rw [← h.total]
        omega
      obtain rfl : mh = src.hash idx := hl 0 mh rfl hidx
      refine ih (h.setMapHash hidx) ?_
      intro k m hk hlt
      have := hl (k + 1) m hk (by omega)
      rwa [show idx + (k + 1) = idx + 1 + k from by omega] at this

lemma Matches.applyHashmapSegment {segment : ℤ} {b : Bytes}
    (hb : src.HashesFrom (segment.toNat * entries) b) :
    Matches src entries (rx.applyHashmapSegment segment b) := by
  rw [IncomingResourceAsm.applyHashmapSegment]
  split_ifs
  · exact h
  · refine h.setMapHashes ?_
    intro k mh hk hlt
    rw [mapHashesOf, getElem?_map, Option.map_eq_some_iff] at hk
    obtain ⟨j, hj, rfl⟩ := hk
    obtain ⟨hjlt, rfl⟩ := List.getElem?_eq_some_iff.1 hj
    rw [h.segLen] at hlt ⊢
    rw [getElem_range] at *
    exact hb k (by simpa using hjlt) hlt

end

lemma Matches.new {adv : ResourceAdvertisement} (hadv : src.Describes adv) (hentries : 0 < entries)
    (last : ℕ) : Matches src entries (new adv entries last) := by
  have hblank : Matches src entries (blank adv entries) := by
    refine ⟨?_, hadv.transferSize, hadv.randomHash, ?_, ?_, ?_, ?_, ?_⟩
    · simp [blank, hadv.parts]
    · simp [blank, IncomingResourceAsm.segLen, hentries.ne']
    · simp [blank]
    · simp [blank]
    · simp [blank]
    · simp [blank, filledBytes]
  have h : Matches src entries ((blank adv entries).applyHashmapSegment 0 adv.hashmap) :=
    hblank.applyHashmapSegment (by simpa using hadv.hashmap)
  exact { h with }

lemma Matches.afterPart (h : Matches src entries rx) :
    ((∀ i < src.count, rx.partSlots i ≠ none) ∧ rx.afterPart = .complete src.ciphertext) ∨
      (¬ (∀ i < src.count, rx.partSlots i ≠ none)) ∧ ∃ rx' prefetchHMU needRefill,
        rx.afterPart = .stored rx' prefetchHMU needRefill ∧ Matches src entries rx' := by
  by_cases hcomplete : rx.incomingTransferComplete
  · have hall := h.faithful.complete.1 hcomplete
    refine .inl ⟨hall, ?_⟩
    rw [IncomingResourceAsm.afterPart, if_pos hcomplete, h.concat hall]
  · refine .inr
      ⟨fun hall => hcomplete (h.faithful.complete.2 hall), _, _, _, if_neg hcomplete, ?_⟩
    split_ifs
    · exact h.growIncomingResourceWindow
    · exact h

end IncomingResourceAsm

namespace IncomingLink

variable {sha : Sha256} {src : PartSource sha} {l : IncomingLink} {mdu : ℤ}
  {rx : IncomingResourceAsm}

/-- **The link reassembles the ciphertext.**  The transfer under way is the sender's.  It stays so
with the next genuine part in its slot, and this part makes the link hand on the ciphertext if it
fills the last slot, and nothing otherwise.  Whatever was handed on is the ciphertext. -/
structure Reassembles (src : PartSource sha) (l : IncomingLink) : Prop where
  active : ∀ generation rx, l.incomingRx = some (generation, rx) → Faithful src rx
  part : ∀ generation rx i idx, l.incomingRx = some (generation, rx) → i < src.count →
    rx.findSlot (src.hash i) = some idx →
    Faithful src (rx.storePart idx (src.part i)) ∧
      (l.step sha (.part (src.part i))).delivered = l.delivered ++
        if ∀ j < src.count, (rx.storePart idx (src.part i)).partSlots j ≠ none then
          [(rx.adv, src.ciphertext)] else []
  delivered : ∀ d ∈ l.delivered, d.2 = src.ciphertext

structure FromSource (src : PartSource sha) (mdu : ℤ) (l : IncomingLink) : Prop where
  mdu_eq : l.mdu = mdu
  active : ∀ generation rx, l.incomingRx = some (generation, rx) →
    Matches src (hashmapEntriesPerSegment mdu) rx
  delivered : ∀ d ∈ l.delivered, d.2 = src.ciphertext

section

variable (h : FromSource src mdu l) {generation : ℕ}
include h

lemma FromSource.appendIncomingResourcePart (hrx : l.incomingRx = some (generation, rx))
    (hi : i < src.count) (hslot : rx.findSlot (src.hash i) = some idx) :
    Matches src (hashmapEntriesPerSegment mdu) (rx.storePart idx (src.part i)) ∧
      rx.appendIncomingResourcePart sha (src.part i) =
        (rx.storePart idx (src.part i)).afterPart := by
  have hm := h.active generation rx hrx
  obtain rfl := hm.findSlot hi hslot
  obtain ⟨-, hnone, -⟩ := findSlot_spec hslot
  refine ⟨hm.storePart hi hnone, ?_⟩
  rw [IncomingResourceAsm.appendIncomingResourcePart, if_neg (src.part_ne_nil hi), hm.random,
    if_neg (by simp [src.length_randomHash])]
  rw [PartSource.hash] at hslot
  rw [hslot]

lemma FromSource.reassembles : Reassembles src l where
  active generation rx hrx := (h.active generation rx hrx).faithful
  part generation rx i idx hrx hi hslot := by
    obtain ⟨hm, happend⟩ := h.appendIncomingResourcePart hrx hi hslot
    refine ⟨hm.faithful, ?_⟩
    rw [step, handleResourcePart, hrx]
    simp only [happend]
    rcases hm.afterPart with ⟨hall, hafter⟩ | ⟨hall, rx', prefetchHMU, needRefill, hafter, -⟩
    · rw [hafter, if_pos hall]
    · rw [hafter, if_neg hall, append_nil]
  delivered := h.delivered

/-! ## Steps -/

lemma FromSource.change {e : IncomingEvent} {rx' : IncomingResourceAsm}
    (hrx : l.incomingRx = some (generation, rx)) (he : src.Genuine mdu e)
    (hch : Change sha l generation e rx rx') : Matches src (hashmapEntriesPerSegment mdu) rx' := by
  have hm := h.active generation rx hrx
  cases hch with
  | stored hdata hslot =>
    obtain ⟨i, hi, rfl⟩ := he
    rw [hm.random] at hslot
    exact (h.appendIncomingResourcePart hrx hi hslot).1
  | grown hdata hslot =>
    obtain ⟨i, hi, rfl⟩ := he
    rw [hm.random] at hslot
    exact (h.appendIncomingResourcePart hrx hi hslot).1.growIncomingResourceWindow
  | updated hwait =>
    have hm' := hm.applyHashmapSegment he
    exact ⟨hm'.total, hm'.size, hm'.random, hm'.segLen, hm'.hash_ok, hm'.index_ok, hm'.slot_ok,
      hm'.bytes_ok⟩
  | stalled => exact hm.stall
  | requested | prefetched => exact hm.issue _ _
  | cancelled htask | uncancelled => exact hm.cancelRequest _ _

lemma FromSource.complete {inner : Bytes}
    (hrx : l.incomingRx = some (generation, rx)) (hi : i < src.count)
    (hcomplete : rx.appendIncomingResourcePart sha (src.part i) = .complete inner) :
    inner = src.ciphertext := by
  have hm := h.active generation rx hrx
  rcases rx.appendIncomingResourcePart_cases sha (src.part i) with
    (heq | ⟨err, heq⟩) | ⟨hall, heq⟩ | ⟨idx, -, hslot, heq⟩
  · simp [heq] at hcomplete
  · simp [heq] at hcomplete
  · rw [heq, hm.concat (hm.faithful.complete.1 hall)] at hcomplete
    exact (PartOutcome.complete.inj hcomplete).symm
  · rw [hm.random] at hslot
    obtain ⟨hm', -⟩ := h.appendIncomingResourcePart hrx hi hslot
    rw [heq] at hcomplete
    rcases hm'.afterPart with ⟨-, hafter⟩ | ⟨-, rx', prefetchHMU, needRefill, hafter, -⟩
    · rw [hafter] at hcomplete
      exact (PartOutcome.complete.inj hcomplete).symm
    · simp [hafter] at hcomplete

/-- **Every genuine event keeps the invariant.** -/
lemma FromSource.step {e : IncomingEvent} (he : src.Genuine mdu e) :
    FromSource src mdu (l.step sha e) where
  mdu_eq := (frame_step sha l e).mdu.trans h.mdu_eq
  active generation rx' hrx' := by
    rcases change_step hrx' with hsame | ⟨adv, admitted, rfl, rfl⟩ | ⟨rx, hrx, hch⟩
    · exact h.active generation rx' hsame
    · rw [h.mdu_eq]
      exact .new he (hashmapEntriesPerSegment_pos mdu) _
    · exact h.change hrx he hch
  delivered d hd := by
    rcases (frame_step sha l e).delivered with
      heq | ⟨data, generation, rx, inner, rfl, hrx, hcomplete, heq⟩
    · rw [heq] at hd
      exact h.delivered d hd
    · obtain ⟨i, hi, rfl⟩ := he
      rw [heq, h.complete hrx hi hcomplete, mem_append, mem_singleton] at hd
      rcases hd with hd | rfl
      · exact h.delivered d hd
      · rfl

end

/-- **Reassembly.**  However genuine packets are ordered, repeated and lost, and however requests,
failures, watchdog ticks and resets fall between them, the receiver reassembles the ciphertext. -/
theorem reassembles_of_genuine (sha : Sha256) (src : PartSource sha) (mtu mdu : ℤ)
    (events : List IncomingEvent) (h : ∀ e ∈ events, src.Genuine mdu e) :
    Run.Always (step sha) (Reassembles src) (new mtu mdu) events := by
  have hinit : FromSource src mdu (new mtu mdu) :=
    ⟨rfl, fun _ _ hrx => by simp [new] at hrx, by simp [new]⟩
  exact (Run.always_of_along (fun _ _ hl he => hl.step he) hinit (Run.along_of_forall h)).mono
    fun _ hl => hl.reassembles

def twoParts : PartSource .padded where
  ciphertext := [1, 2, 3, 4, 5, 6]
  sdu := 4
  randomHash := [9, 9, 9, 9]
  sdu_pos := by decide
  length_randomHash := rfl
  distinct := by decide

/-- The second map hash comes in an update; the parts arrive in reverse order, one of them twice; a
request fails and the watchdog ticks. -/
def swappedRun : List IncomingEvent :=
  [.advertisement (.plain 6 2 [9, 9, 9, 9] [1, 2, 3, 4]) true, .run 0 true, .run 0 true,
    .hashmapUpdate [] 1 [5, 6, 9, 9], .part [5, 6], .run 0 false, .part [5, 6], .tick 0 true,
    .part [1, 2, 3, 4]]

theorem reassembles_swappedRun :
    (Run.exec (step Sha256.padded) (new 40 4) swappedRun).delivered.map Prod.snd =
        [[1, 2, 3, 4, 5, 6]] ∧
      Run.Always (step Sha256.padded) (Reassembles twoParts) (new 40 4) swappedRun := by
  refine ⟨by decide +kernel, reassembles_of_genuine .padded twoParts 40 4 swappedRun ?_⟩
  have hadv : twoParts.Describes (.plain 6 2 [9, 9, 9, 9] [1, 2, 3, 4]) :=
    ⟨rfl, rfl, rfl, by decide⟩
  have hfirst : ∃ i < twoParts.count, [1, 2, 3, 4] = twoParts.part i := ⟨0, by decide, by decide⟩
  have hsecond : ∃ i < twoParts.count, [5, 6] = twoParts.part i := ⟨1, by decide, by decide⟩
  have hupdate : twoParts.HashesFrom (1 * hashmapEntriesPerSegment 4) [5, 6, 9, 9] := by decide
  simp only [swappedRun, forall_mem_cons]
  exact ⟨hadv, trivial, trivial, hupdate, hsecond, trivial, hsecond, trivial, hfirst, by simp⟩

end IncomingLink

end Reticulum

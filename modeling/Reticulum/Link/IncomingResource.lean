import Mathlib.Algebra.BigOperators.Group.Finset.Piecewise
import Reticulum.Core.Run
import Reticulum.Resource.Def

/-!
# Incoming resources

The receiving side of a resource transfer (`pkg/link`).  An advertisement starts a transfer; the
receiver requests parts by their map hashes, a **window** of them at a time, and **hashmap updates**
(HMU) once the map hashes it knows are used up; when all slots are filled their contents are joined
and handed on.  A **watchdog** repeats requests, or gives the transfer up.

The handlers send their requests from goroutines of their own and without the lock.  So the link is
modelled with the **tasks** such goroutines have left to do.  `Change` lists what an event can make
of a transfer, and **`transfers_always`** is the invariant rule that follows.

Arrays of length `totalParts` are functions of the index.  Whether the grace period has passed is
part of a tick.  The counters for the log, the admission accounting and the request receipts bound
to a transfer are left out.
-/

namespace Reticulum

open Resource.Constants List
open scoped BigOperators

def hashmapNotExhausted : UInt8 := 0x00
def hashmapExhausted : UInt8 := 0xff
def incomingResourceWindowShrinkStalls : ℕ := 2
def incomingResourceWindowMaxShrinkStalls : ℕ := 3
def incomingResourceMaxStallRetries : ℕ := 16

def maxInt : ℤ := 2 ^ 63 - 1

structure IncomingResourceAsm where
  adv : ResourceAdvertisement
  hashmapSegLen : ℕ
  partSlots : ℕ → Option Bytes
  mapHashes : ℕ → Option Bytes
  inflight : Finset ℕ
  hashIndex : Bytes → List ℕ
  hashmapHeight : ℕ
  totalParts : ℕ
  consecutiveCompleted : ℤ
  waitingForHmu : Bool
  outstandingParts : ℕ
  window : ℕ
  windowMin : ℕ
  windowMax : ℕ
  consecutiveStalls : ℕ
  bytesReceived : ℕ

namespace IncomingResourceAsm

/-! ## Map hashes -/

section

variable (rx : IncomingResourceAsm) (mh : Bytes)

def indexMapHash (idx : ℕ) (mh : Bytes) : IncomingResourceAsm :=
  if mh.length ≠ mapHashLen ∨ idx ∈ rx.hashIndex mh then rx
  else { rx with hashIndex := Function.update rx.hashIndex mh (rx.hashIndex mh ++ [idx]) }

def setMapHash (idx : ℕ) (mh : Bytes) : IncomingResourceAsm :=
  indexMapHash { rx with
    hashmapHeight := if rx.mapHashes idx = none then rx.hashmapHeight + 1 else rx.hashmapHeight
    mapHashes := Function.update rx.mapHashes idx (some mh) } idx mh

def setMapHashes (rx : IncomingResourceAsm) (idx : ℕ) : List Bytes → IncomingResourceAsm
  | [] => rx
  | mh :: rest =>
    if rx.totalParts ≤ idx then rx else (rx.setMapHash idx mh).setMapHashes (idx + 1) rest

def mapHashesOf (hashmapBytes : Bytes) : List Bytes :=
  (range (hashmapBytes.length / mapHashLen)).map (Chunks.slice mapHashLen hashmapBytes)

def segLen : ℕ := if rx.hashmapSegLen = 0 then 1 else rx.hashmapSegLen

/-- Store segment number `segment` of the hashmap.  The number comes off the wire: negative ones,
and those whose index would overflow, are ignored. -/
def applyHashmapSegment (segment : ℤ) (hashmapBytes : Bytes) : IncomingResourceAsm :=
  if segment < 0 ∨ maxInt / rx.segLen < segment then rx
  else rx.setMapHashes (segment.toNat * rx.segLen) (mapHashesOf hashmapBytes)

def lookupMapHash (windowStart windowEnd : ℕ) : Option ℕ :=
  if mh.length ≠ mapHashLen then none
  else (rx.hashIndex mh).find? fun i =>
    decide (windowStart ≤ i ∧ i < windowEnd) && (rx.partSlots i).isNone

def hasMapHash (i : ℕ) : Bool :=
  decide (rx.mapHashes i = some mh ∧ mh.length = mapHashLen)

def scanMapHash (windowStart windowEnd : ℕ) : Option ℕ :=
  (range' windowStart (windowEnd - windowStart)).find? fun i =>
    (rx.partSlots i).isNone && rx.hasMapHash mh i

/-! ## The window -/

def searchStart : ℕ := (max (rx.consecutiveCompleted + 1) 0).toNat

def requestWindow : ℕ :=
  if rx.window = 0 then Resource.Constants.window else rx.window

def knownHashesAhead : ℕ :=
  ((range' rx.searchStart (rx.totalParts - rx.searchStart)).takeWhile fun pn =>
    (rx.mapHashes pn).isSome).countP fun pn => (rx.partSlots pn).isNone

def prefetchHMU : Bool :=
  !rx.waitingForHmu && decide (rx.hashmapHeight < rx.totalParts) &&
    decide (rx.knownHashesAhead < max (rx.window / 2) 1)

def growIncomingResourceWindow : IncomingResourceAsm :=
  if rx.window < rx.windowMax then
    let window := min (rx.window + max (rx.window / 4) 1) rx.windowMax
    { rx with
      window
      windowMin := if windowFlexibility - 1 < window - rx.windowMin then rx.windowMin + 1
        else rx.windowMin }
  else rx

def startIncomingWindow (last minW maxW defaultW : ℕ) : ℕ :=
  if last = 0 then defaultW
  else if maxW < last then maxW
  else if last < minW then minW
  else last

/-! ## Requests -/

/-- The parts to request next, from the indices still to look at: known map hashes without slot or
request, at most `slotsNeeded` of them, up to the first unknown map hash.  The second component says
that an unknown one was reached which is not waited for already. -/
def selectRequests (rx : IncomingResourceAsm) : ℕ → List ℕ → List ℕ × Bool
  | _, [] => ([], false)
  | slotsNeeded, pn :: rest =>
    if (rx.partSlots pn).isSome ∨ pn ∈ rx.inflight then rx.selectRequests slotsNeeded rest
    else if (rx.mapHashes pn).isSome then
      if slotsNeeded ≤ 1 then ([pn], false)
      else
        let (requestedIdx, exhausted) := rx.selectRequests (slotsNeeded - 1) rest
        (pn :: requestedIdx, exhausted)
    else ([], !rx.waitingForHmu)

/-- The parts to request next: the search looks two windows ahead of the first missing part. -/
def nextRequests : List ℕ × Bool :=
  let last := min (rx.searchStart + rx.requestWindow * 2) rx.totalParts
  rx.selectRequests (rx.requestWindow - rx.outstandingParts)
    (range' rx.searchStart (last - rx.searchStart))

/-- The last map hash before the first unknown one, by which the sender finds the segment to send
next. -/
def anchorHash (noAnchor badAnchor : String) : Except String Bytes :=
  if rx.hashmapHeight = 0 ∨ rx.totalParts ≤ rx.hashmapHeight - 1 then .error noAnchor
  else
    let last := (rx.mapHashes (rx.hashmapHeight - 1)).getD []
    if last.length ≠ mapHashLen then .error badAnchor else .ok last

structure Request where
  asm : IncomingResourceAsm
  requestedIdx : List ℕ
  exhausted : Bool
  body : Bytes

def issue (requestedIdx : List ℕ) (exhausted : Bool) : IncomingResourceAsm :=
  { rx with
    waitingForHmu := rx.waitingForHmu || exhausted
    inflight := rx.inflight ∪ requestedIdx.toFinset
    outstandingParts := rx.outstandingParts + requestedIdx.length }

def requestBody (anchor : Option Bytes) (requestedIdx : List ℕ) : Bytes :=
  (match anchor with
    | none => [hashmapNotExhausted]
    | some last => hashmapExhausted :: last) ++
  rx.adv.hash ++ requestedIdx.flatMap fun pn => (rx.mapHashes pn).getD []

/-- The locked stretch of `sendIncomingResourceReqNext`: what to request, if anything. -/
def sendIncomingResourceReqNext : Except String (Option Request) :=
  let win := rx.requestWindow
  if rx.totalParts ≤ rx.searchStart then .ok none
  else if 0 < rx.outstandingParts ∧ win / 2 < rx.outstandingParts then .ok none
  else if win ≤ rx.outstandingParts then .ok none
  else
    let (requestedIdx, exhausted) := rx.nextRequests
    if requestedIdx.flatMap (fun pn => (rx.mapHashes pn).getD []) = [] ∧ exhausted = false then
      .ok none
    else if exhausted then
      match rx.anchorHash "incoming resource cannot request hashmap extension"
          "invalid last map hash for HMU request" with
      | .error err => .error err
      | .ok anchor => .ok (some ⟨rx.issue requestedIdx true, requestedIdx, true,
          rx.requestBody (some anchor) requestedIdx⟩)
    else .ok (some ⟨rx.issue requestedIdx false, requestedIdx, false,
      rx.requestBody none requestedIdx⟩)

def cancelRequest (requestedIdx : List ℕ) (exhausted : Bool) : IncomingResourceAsm :=
  { rx with
    inflight := rx.inflight \ requestedIdx.toFinset
    outstandingParts := rx.outstandingParts - requestedIdx.length
    waitingForHmu := rx.waitingForHmu && !exhausted }

def sendIncomingResourceHMUPrefetch : Except String (Option Request) :=
  if rx.waitingForHmu then .ok none
  else if rx.totalParts ≤ rx.hashmapHeight then .ok none
  else if max (rx.window / 2) 1 ≤ rx.knownHashesAhead then .ok none
  else
    match rx.anchorHash "incoming resource cannot prefetch hashmap extension"
        "invalid last map hash for HMU prefetch" with
    | .error err => .error err
    | .ok anchor => .ok (some ⟨rx.issue [] true, [], true, rx.requestBody (some anchor) []⟩)

/-- The locked stretch of a watchdog tick that finds the transfer stalled: the requests under way
are forgotten, and the windows shrink after repeated stalls. -/
def stall : IncomingResourceAsm :=
  let stalls := rx.consecutiveStalls + 1
  let window :=
    if incomingResourceWindowShrinkStalls ≤ stalls ∧ rx.windowMin < rx.window ∧ 0 < rx.windowMin
    then rx.window - 1 else rx.window
  let windowMax :=
    if incomingResourceWindowMaxShrinkStalls ≤ stalls ∧ rx.windowMin < rx.windowMax then
      if windowFlexibility - 1 < rx.windowMax - 1 - window then rx.windowMax - 2
      else rx.windowMax - 1
    else rx.windowMax
  { rx with
    waitingForHmu := false
    inflight := ∅
    outstandingParts := 0
    consecutiveStalls := stalls
    window
    windowMax }

/-! ## Parts -/

/-- The number of the last part of the leading run of filled slots, `-1` if the first slot is
empty. -/
def consecutivePrefix (slots : ℕ → Option Bytes) (totalParts : ℕ) : ℤ :=
  ((range totalParts).findIdx fun i => ((slots i).getD []).length = 0) - 1

def filledBytes : ℕ :=
  ((range rx.totalParts).map fun i => ((rx.partSlots i).getD []).length).sum

def incomingTransferComplete : Bool :=
  (range rx.totalParts).all (fun i => (rx.partSlots i).isSome) &&
    decide ((rx.filledBytes : ℤ) = rx.adv.transferSize)

def concatIncomingParts : Bytes :=
  (range rx.totalParts).flatMap fun i => (rx.partSlots i).getD []

def findIn (windowStart windowEnd : ℕ) : Option ℕ :=
  rx.lookupMapHash mh windowStart windowEnd <|> rx.scanMapHash mh windowStart windowEnd

/-- The slot for a part with map hash `mh`: in the window, or else in the collision guard range. -/
def findSlot : Option ℕ :=
  rx.findIn mh rx.searchStart (min (rx.searchStart + rx.requestWindow) rx.totalParts) <|>
    rx.findIn mh rx.searchStart (min (rx.searchStart + collisionGuardSize) rx.totalParts)

def isDuplicate : Bool :=
  (range rx.totalParts).any fun i => (rx.partSlots i).isSome && rx.hasMapHash mh i

def storePart (idx : ℕ) (data : Bytes) : IncomingResourceAsm :=
  { rx with
    partSlots := Function.update rx.partSlots idx (some data)
    consecutiveStalls := 0
    bytesReceived := rx.bytesReceived + data.length
    inflight := rx.inflight.erase idx
    outstandingParts := rx.outstandingParts - 1
    consecutiveCompleted :=
      consecutivePrefix (Function.update rx.partSlots idx (some data)) rx.totalParts }

/-- What becomes of a part: an error, nothing, the joined parts, or the transfer with the part in
it and the requests to queue. -/
inductive PartOutcome where
  | error (err : String)
  | ignored
  | complete (inner : Bytes)
  | stored (asm : IncomingResourceAsm) (prefetchHMU needRefill : Bool)

def needRefill : Bool :=
  decide (rx.outstandingParts = 0 ∨ rx.outstandingParts ≤ rx.requestWindow / 2)

def afterPart : PartOutcome :=
  if rx.incomingTransferComplete then .complete rx.concatIncomingParts
  else .stored
    (if rx.needRefill ∧ rx.consecutiveStalls = 0 then rx.growIncomingResourceWindow else rx)
    rx.prefetchHMU rx.needRefill

def appendIncomingResourcePart (sha : Sha256) (rx : IncomingResourceAsm) (data : Bytes) :
    PartOutcome :=
  if data = [] then
    if rx.incomingTransferComplete then .complete rx.concatIncomingParts else .ignored
  else if rx.adv.randomHash.length ≠ randomHashSize then .error "bad random hash in advertisement"
  else
    match rx.findSlot (sha.mapHash rx.adv.randomHash data) with
    | none =>
      if rx.isDuplicate (sha.mapHash rx.adv.randomHash data) then .ignored
      else .error "incoming resource part map hash mismatch"
    | some idx => (rx.storePart idx data).afterPart

def blank (adv : ResourceAdvertisement) (hashmapSegLen : ℕ) : IncomingResourceAsm where
  adv
  hashmapSegLen
  partSlots := fun _ => none
  mapHashes := fun _ => none
  inflight := ∅
  hashIndex := fun _ => []
  hashmapHeight := 0
  totalParts := adv.parts.toNat
  consecutiveCompleted := -1
  waitingForHmu := false
  outstandingParts := 0
  window := windowMaxSlow
  windowMin := Resource.Constants.windowMin
  windowMax := windowMaxFast
  consecutiveStalls := 0
  bytesReceived := 0

def new (adv : ResourceAdvertisement) (hashmapSegLen lastResourceWindow : ℕ) :
    IncomingResourceAsm :=
  { (blank adv hashmapSegLen).applyHashmapSegment 0 adv.hashmap with
    window := startIncomingWindow lastResourceWindow Resource.Constants.windowMin windowMaxFast
      windowMaxSlow }

/-! ## What the functions do -/

lemma length_of_mem_mapHashesOf {b mh : Bytes} (h : mh ∈ mapHashesOf b) :
    mh.length = mapHashLen := by
  obtain ⟨i, hi, rfl⟩ := mem_map.1 h
  have hlt := mem_range.1 hi
  rw [Chunks.length_slice]
  simp only [mapHashLen] at hlt ⊢
  omega

lemma setMapHash_frame (idx : ℕ) (mh : Bytes) : ∃ index, rx.setMapHash idx mh = { rx with
      hashmapHeight := if rx.mapHashes idx = none then rx.hashmapHeight + 1 else rx.hashmapHeight
      mapHashes := Function.update rx.mapHashes idx (some mh)
      hashIndex := index } := by
  rw [setMapHash, indexMapHash]
  split_ifs <;> exact ⟨_, rfl⟩

lemma setMapHashes_frame (l : List Bytes) (rx : IncomingResourceAsm) (idx : ℕ) :
    ∃ height hashes index, rx.setMapHashes idx l =
      { rx with hashmapHeight := height, mapHashes := hashes, hashIndex := index } := by
  induction l generalizing rx idx with
  | nil => exact ⟨rx.hashmapHeight, rx.mapHashes, rx.hashIndex, rfl⟩
  | cons mh rest ih =>
    rw [setMapHashes]
    split_ifs with h
    · exact ⟨rx.hashmapHeight, rx.mapHashes, rx.hashIndex, rfl⟩
    · obtain ⟨index, hset⟩ := rx.setMapHash_frame idx mh
      obtain ⟨height, hashes, index', hrest⟩ := ih (rx.setMapHash idx mh) (idx + 1)
      exact ⟨height, hashes, index', by rw [hrest, hset]⟩

lemma applyHashmapSegment_frame (segment : ℤ) (b : Bytes) :
    ∃ height hashes index, rx.applyHashmapSegment segment b =
      { rx with hashmapHeight := height, mapHashes := hashes, hashIndex := index } := by
  rw [applyHashmapSegment]
  split_ifs
  · exact ⟨rx.hashmapHeight, rx.mapHashes, rx.hashIndex, rfl⟩
  · exact setMapHashes_frame _ rx _

lemma applyHashmapSegment_zero (b : Bytes) :
    rx.applyHashmapSegment 0 b = rx.setMapHashes 0 (mapHashesOf b) := by
  have hpos : 0 ≤ maxInt / rx.segLen := Int.ediv_nonneg (by decide) (Int.natCast_nonneg _)
  rw [applyHashmapSegment, if_neg (by omega)]
  simp

end

variable {rx : IncomingResourceAsm}

lemma findIn_spec {mh : Bytes} {lo hi idx : ℕ} (h : rx.findIn mh lo hi = some idx) :
    idx < hi ∧ rx.partSlots idx = none ∧
      (idx ∈ rx.hashIndex mh ∨ rx.mapHashes idx = some mh) := by
  rcases (Option.orElse_eq_some _ _ _).1 h with hlook | ⟨-, hscan⟩
  · rw [lookupMapHash] at hlook
    split_ifs at hlook
    have hmem := mem_of_find?_eq_some hlook
    have hfound := find?_some hlook
    simp only [Bool.and_eq_true, decide_eq_true_eq, Option.isNone_iff_eq_none] at hfound
    exact ⟨hfound.1.2, hfound.2, .inl hmem⟩
  · have hmem := mem_of_find?_eq_some hscan
    have hfound := find?_some hscan
    simp only [hasMapHash, Bool.and_eq_true, decide_eq_true_eq, Option.isNone_iff_eq_none] at hfound
    rw [mem_range'_1] at hmem
    exact ⟨by omega, hfound.1, .inr hfound.2.1⟩

/-- **A part goes into an empty slot** whose map hash it has. -/
lemma findSlot_spec {mh : Bytes} {idx : ℕ} (h : rx.findSlot mh = some idx) :
    idx < rx.totalParts ∧ rx.partSlots idx = none ∧
      (idx ∈ rx.hashIndex mh ∨ rx.mapHashes idx = some mh) := by
  rcases (Option.orElse_eq_some _ _ _).1 h with h | ⟨-, h⟩ <;>
  · obtain ⟨hlt, hrest⟩ := findIn_spec h
    exact ⟨by omega, hrest⟩

lemma filledBytes_eq_sum (rx : IncomingResourceAsm) :
    rx.filledBytes = ∑ i ∈ .range rx.totalParts, ((rx.partSlots i).getD []).length :=
  rfl

lemma filledBytes_storePart {idx : ℕ} (hidx : idx < rx.totalParts) (hslot : rx.partSlots idx = none)
    (data : Bytes) : (rx.storePart idx data).filledBytes = rx.filledBytes + data.length := by
  have hmem : idx ∈ range rx.totalParts := mem_range.2 hidx
  have hupd : (fun i => ((Function.update rx.partSlots idx (some data) i).getD []).length) =
      Function.update (fun i => ((rx.partSlots i).getD []).length) idx data.length := by
    funext i
    rcases eq_or_ne i idx with rfl | hne
    · simp
    · simp [Function.update_of_ne hne]
  have hold : rx.filledBytes = 0 +
      ∑ i ∈ .range rx.totalParts \ {idx}, ((rx.partSlots i).getD []).length := by
    rw [filledBytes_eq_sum, Finset.sum_eq_add_sum_sdiff_singleton_of_mem hmem, hslot]
    rfl
  calc (rx.storePart idx data).filledBytes
      = ∑ i ∈ .range rx.totalParts,
          ((Function.update rx.partSlots idx (some data) i).getD []).length :=
        filledBytes_eq_sum _
    _ = data.length +
          ∑ i ∈ .range rx.totalParts \ {idx}, ((rx.partSlots i).getD []).length := by
        rw [hupd, Finset.sum_update_of_mem hmem]
    _ = rx.filledBytes + data.length := by omega

/-- A part is turned away, or it goes into a slot; an empty one completes a transfer that is ready
to be completed. -/
lemma appendIncomingResourcePart_cases (sha : Sha256) (rx : IncomingResourceAsm) (data : Bytes) :
    (rx.appendIncomingResourcePart sha data = .ignored ∨
      ∃ err, rx.appendIncomingResourcePart sha data = .error err) ∨ (rx.incomingTransferComplete ∧
      rx.appendIncomingResourcePart sha data = .complete rx.concatIncomingParts) ∨
    ∃ idx, data ≠ [] ∧ rx.findSlot (sha.mapHash rx.adv.randomHash data) = some idx ∧
      rx.appendIncomingResourcePart sha data = (rx.storePart idx data).afterPart := by
  rw [appendIncomingResourcePart]
  by_cases hdata : data = []
  · split_ifs with hcomplete
    · exact .inr (.inl ⟨hcomplete, rfl⟩)
    · exact .inl (.inl rfl)
  rw [if_neg hdata]
  by_cases hrandom : rx.adv.randomHash.length ≠ randomHashSize
  · rw [if_pos hrandom]
    exact .inl (.inr ⟨_, rfl⟩)
  rw [if_neg hrandom]
  cases hslot : rx.findSlot (sha.mapHash rx.adv.randomHash data) with
  | none =>
    split_ifs
    · exact .inl (.inl rfl)
    · exact .inl (.inr ⟨_, rfl⟩)
  | some idx => exact .inr (.inr ⟨idx, hdata, rfl, rfl⟩)

lemma selectRequests_spec (rx : IncomingResourceAsm) (l : List ℕ) (n : ℕ) (hnodup : l.Nodup) :
    (rx.selectRequests n l).1 ⊆ l ∧ (rx.selectRequests n l).1.Nodup ∧
      ∀ pn ∈ (rx.selectRequests n l).1,
        pn ∉ rx.inflight ∧ rx.partSlots pn = none ∧ (rx.mapHashes pn).isSome := by
  induction l generalizing n with
  | nil => simp [selectRequests]
  | cons pn rest ih =>
    obtain ⟨hpn, hrest⟩ := nodup_cons.1 hnodup
    rw [selectRequests]
    split_ifs with hskip hknown hlast
    · obtain ⟨hsub, hd, hall⟩ := ih n hrest
      exact ⟨fun x hx => mem_cons_of_mem _ (hsub hx), hd, hall⟩
    · simp_all
    · obtain ⟨hsub, hd, hall⟩ := ih (n - 1) hrest
      refine ⟨cons_subset_cons _ hsub, nodup_cons.2 ⟨fun hin => hpn (hsub hin), hd⟩, ?_⟩
      intro x hx
      rcases mem_cons.1 hx with rfl | hx
      · simp_all
      · exact hall x hx
    · simp

lemma nextRequests_spec (rx : IncomingResourceAsm) : rx.nextRequests.1.Nodup ∧
    ∀ pn ∈ rx.nextRequests.1,
      pn ∉ rx.inflight ∧ rx.partSlots pn = none ∧ (rx.mapHashes pn).isSome :=
  (selectRequests_spec rx _ _ nodup_range').2

lemma sendIncomingResourceReqNext_spec {req : Request}
    (h : rx.sendIncomingResourceReqNext = .ok (some req)) :
    req.requestedIdx = rx.nextRequests.1 ∧ req.asm = rx.issue req.requestedIdx req.exhausted := by
  simp only [sendIncomingResourceReqNext] at h
  split_ifs at h
  · cases h
  · cases h
  · cases h
  · cases h
  · cases hanchor : rx.anchorHash "incoming resource cannot request hashmap extension"
        "invalid last map hash for HMU request" with
    | error err => simp [hanchor] at h
    | ok anchor =>
      rw [hanchor] at h
      obtain rfl := Option.some.inj (Except.ok.inj h)
      exact ⟨rfl, rfl⟩
  · obtain rfl := Option.some.inj (Except.ok.inj h)
    exact ⟨rfl, rfl⟩

lemma sendIncomingResourceHMUPrefetch_asm {req : Request}
    (h : rx.sendIncomingResourceHMUPrefetch = .ok (some req)) : req.asm = rx.issue [] true := by
  rw [sendIncomingResourceHMUPrefetch] at h
  split_ifs at h
  · cases h
  · cases h
  · cases h
  · cases hanchor : rx.anchorHash "incoming resource cannot prefetch hashmap extension"
        "invalid last map hash for HMU prefetch" with
    | error err => simp [hanchor] at h
    | ok anchor =>
      rw [hanchor] at h
      obtain rfl := Option.some.inj (Except.ok.inj h)
      rfl

lemma incomingTransferComplete_iff : rx.incomingTransferComplete ↔
      (∀ i < rx.totalParts, rx.partSlots i ≠ none) ∧
        (rx.filledBytes : ℤ) = rx.adv.transferSize := by
  simp [incomingTransferComplete, Option.isSome_iff_ne_none]

end IncomingResourceAsm

/-! ## The link -/

/-- What a goroutine has left to do: to request, from a handler or from the watchdog; to finish the
sending of a request for the transfer number `generation`; to reset the link. -/
inductive IncomingTask where
  | reqNext (watchdog : Bool)
  | reqSending (watchdog : Bool) (generation : ℕ) (requestedIdx : List ℕ) (exhausted : Bool)
  | prefetch
  | prefetchSending (generation : ℕ)
  | reset
deriving DecidableEq

/-- The link, as far as incoming resources are concerned.  Transfers are numbered, in place of the
pointers by which the code tells them apart; `delivered` is what was handed to
`assembleIncomingPayload`. -/
structure IncomingLink where
  mtu : ℤ
  mdu : ℤ
  incomingRx : Option (ℕ × IncomingResourceAsm)
  started : ℕ
  lastResourceWindow : ℕ
  tasks : List IncomingTask
  delivered : List (ResourceAdvertisement × Bytes)

/-- What happens to the link: an advertisement that the application accepts, with the answer of
the protection engine; a part; a hashmap update; a reset, because the sender cancelled, the link
was torn down or the request receipt was dropped; a tick of the watchdog of a transfer; a task takes
its next step, `sent` being the result of the sending it does, if any. -/
inductive IncomingEvent where
  | advertisement (adv : ResourceAdvertisement) (admitted : Bool)
  | part (data : Bytes)
  | hashmapUpdate (resHash : Bytes) (segment : ℤ) (hashmapBytes : Bytes)
  | reset
  | tick (generation : ℕ) (graceElapsed : Bool)
  | run (task : ℕ) (sent : Bool)

namespace IncomingLink

open IncomingResourceAsm

def new (mtu mdu : ℤ) : IncomingLink := ⟨mtu, mdu, none, 0, 0, [], []⟩

section

variable (l : IncomingLink)

def resourceSDU : ℤ :=
  if 0 < l.mtu ∧ 0 < l.mtu - 35 - 1 then l.mtu - 35 - 1 else l.mdu

def maxSegmentBytes : ℤ := maxEfficientSize + 4096

def beginIncomingResource (adv : ResourceAdvertisement) (admitted : Bool) :
    Except String IncomingLink :=
  let sdu := l.resourceSDU
  if sdu ≤ 0 then .error "invalid mdu for incoming resource"
  else if adv.parts ≤ 0 then .error "invalid parts in advertisement"
  else if min (max (maxSegmentBytes.tdiv sdu + 8) 1) maxSegments < adv.parts then
    .error "incoming resource parts exceed MaxSegments"
  else if adv.transferSize < 0 then .error "incoming resource has negative transfer_size"
  else if maxSegmentBytes < adv.transferSize then
    .error "incoming resource transfer_size exceeds MaxEfficientSize"
  else if adv.parts * sdu < adv.transferSize then
    .error "incoming resource transfer_size exceeds parts*sdu"
  else if adv.hashmap.length = 0 ∨ adv.hashmap.length % mapHashLen ≠ 0 then
    .error "invalid advertisement hashmap"
  else if !admitted then .error "dos_protection refused incoming resource"
  else
    .ok { l with
      incomingRx := some (l.started,
        .new adv (hashmapEntriesPerSegment l.mdu) l.lastResourceWindow)
      started := l.started + 1
      tasks := l.tasks ++ [.reqNext false] }

lemma beginIncomingResource_ok {l l' : IncomingLink} {adv : ResourceAdvertisement} {admitted : Bool}
    (h : l.beginIncomingResource adv admitted = .ok l') :
    0 < adv.parts ∧ adv.hashmap.length ≠ 0 ∧ adv.hashmap.length % mapHashLen = 0 ∧
      l' = { l with
        incomingRx := some (l.started,
          .new adv (hashmapEntriesPerSegment l.mdu) l.lastResourceWindow)
        started := l.started + 1
        tasks := l.tasks ++ [.reqNext false] } := by
  simp only [beginIncomingResource, Fallible.ite_error_eq_ok] at h
  obtain ⟨-, hparts, -, -, -, -, hhashmap, -, hl⟩ := h
  rw [not_or, not_not] at hhashmap
  exact ⟨not_le.1 hparts, hhashmap.1, hhashmap.2, (Except.ok.inj hl).symm⟩

def handleResourcePart (sha : Sha256) (l : IncomingLink) (data : Bytes) : IncomingLink :=
  match l.incomingRx with
  | none => l
  | some (generation, rx) =>
    match rx.appendIncomingResourcePart sha data with
    | .error _ => l
    | .ignored => l
    | .complete inner =>
      { l with
        incomingRx := none
        lastResourceWindow := rx.window
        delivered := l.delivered ++ [(rx.adv, inner)] }
    | .stored rx prefetchHMU needRefill =>
      { l with
        incomingRx := some (generation, rx)
        tasks := l.tasks ++ (if prefetchHMU then [.prefetch] else []) ++
          (if needRefill then [.reqNext false] else []) }

/-- A hashmap update arrives; it counts only if one is waited for.  An empty one ends the
transfer. -/
def applyIncomingHashmapUpdate (resHash : Bytes) (segment : ℤ)
    (hashmapBytes : Bytes) : IncomingLink :=
  match l.incomingRx with
  | none => l
  | some (generation, rx) =>
    if resHash ≠ rx.adv.hash ∨ !rx.waitingForHmu then l
    else if hashmapBytes.length / mapHashLen < 1 then { l with tasks := l.tasks ++ [.reset] }
    else
      { l with
        incomingRx := some
          (generation, { rx.applyHashmapSegment segment hashmapBytes with waitingForHmu := false })
        tasks := l.tasks ++ [.reqNext false] }

def resetIncomingResource : IncomingLink := { l with incomingRx := none }

/-- One check of the watchdog of transfer number `watched`.  A transfer that neither waits for a
hashmap update nor has parts outstanding is left alone. -/
def tickIncomingResourceWatchdog (watched : ℕ) (graceElapsed : Bool) : IncomingLink :=
  match l.incomingRx with
  | none => l
  | some (generation, rx) =>
    if generation ≠ watched ∨ !graceElapsed then l
    else if rx.outstandingParts = 0 ∧ !rx.waitingForHmu then l
    else
      let abort := decide (incomingResourceMaxStallRetries ≤ rx.stall.consecutiveStalls)
      { l with
        incomingRx := some (generation, rx.stall)
        tasks := l.tasks ++ [if abort then .reset else .reqNext true] }

def afterFailure (watchdog : Bool) : List IncomingTask := if watchdog then [.reset] else []

def runTask (sent : Bool) : IncomingTask → IncomingLink
  | .reqNext watchdog =>
    match l.incomingRx with
    | none => l
    | some (generation, rx) =>
      match rx.sendIncomingResourceReqNext with
      | .error _ => { l with tasks := l.tasks ++ afterFailure watchdog }
      | .ok none => l
      | .ok (some req) =>
        { l with
          incomingRx := some (generation, req.asm)
          tasks := l.tasks ++ [.reqSending watchdog generation req.requestedIdx req.exhausted] }
  | .reqSending watchdog generation requestedIdx exhausted =>
    if sent then l
    else
      { l with
        incomingRx := l.incomingRx.map fun rx =>
          if rx.1 = generation then (rx.1, rx.2.cancelRequest requestedIdx exhausted) else rx
        tasks := l.tasks ++ afterFailure watchdog }
  | .prefetch =>
    match l.incomingRx with
    | none => l
    | some (generation, rx) =>
      match rx.sendIncomingResourceHMUPrefetch with
      | .error _ => l
      | .ok none => l
      | .ok (some req) =>
        { l with
          incomingRx := some (generation, req.asm)
          tasks := l.tasks ++ [.prefetchSending generation] }
  | .prefetchSending generation =>
    if sent then l
    else
      { l with
        incomingRx := l.incomingRx.map fun rx =>
          if rx.1 = generation then (rx.1, rx.2.cancelRequest [] true) else rx }
  | .reset => l.resetIncomingResource

end

/-- One event.  An advertisement that is refused tears the link down, which resets it. -/
def step (sha : Sha256) (l : IncomingLink) : IncomingEvent → IncomingLink
  | .advertisement adv admitted =>
    match l.beginIncomingResource adv admitted with
    | .error _ => { l with tasks := l.tasks ++ [.reset] }
    | .ok l => l
  | .part data => l.handleResourcePart sha data
  | .hashmapUpdate resHash segment hashmapBytes =>
    l.applyIncomingHashmapUpdate resHash segment hashmapBytes
  | .reset => l.resetIncomingResource
  | .tick watched graceElapsed => l.tickIncomingResourceWatchdog watched graceElapsed
  | .run i sent =>
    match l.tasks[i]? with
    | none => l
    | some task => runTask { l with tasks := l.tasks.eraseIdx i } sent task

/-! ## What an event makes of a transfer -/

/-- What an event makes of transfer number `generation`, where it does not leave it alone. -/
inductive Change (sha : Sha256) (l : IncomingLink) (generation : ℕ) :
    IncomingEvent → IncomingResourceAsm → IncomingResourceAsm → Prop
  | stored {rx : IncomingResourceAsm} {idx : ℕ} {data : Bytes} (hdata : data ≠ [])
      (hslot : rx.findSlot (sha.mapHash rx.adv.randomHash data) = some idx) :
      Change sha l generation (.part data) rx (rx.storePart idx data)
  | grown {rx : IncomingResourceAsm} {idx : ℕ} {data : Bytes} (hdata : data ≠ [])
      (hslot : rx.findSlot (sha.mapHash rx.adv.randomHash data) = some idx) :
      Change sha l generation (.part data) rx (rx.storePart idx data).growIncomingResourceWindow
  | updated {rx : IncomingResourceAsm} {segment : ℤ} {b : Bytes} (hwait : rx.waitingForHmu = true) :
      Change sha l generation (.hashmapUpdate rx.adv.hash segment b) rx
        { rx.applyHashmapSegment segment b with waitingForHmu := false }
  | stalled (rx : IncomingResourceAsm) (graceElapsed : Bool) :
      Change sha l generation (.tick generation graceElapsed) rx rx.stall
  | requested (rx : IncomingResourceAsm) (i : ℕ) (sent exhausted : Bool) :
      Change sha l generation (.run i sent) rx (rx.issue rx.nextRequests.1 exhausted)
  | prefetched (rx : IncomingResourceAsm) (i : ℕ) (sent : Bool) :
      Change sha l generation (.run i sent) rx (rx.issue [] true)
  | cancelled {rx : IncomingResourceAsm} {i : ℕ} {watchdog exhausted : Bool} {idx : List ℕ}
      (htask : l.tasks[i]? = some (.reqSending watchdog generation idx exhausted)) :
      Change sha l generation (.run i false) rx (rx.cancelRequest idx exhausted)
  | uncancelled (rx : IncomingResourceAsm) (i : ℕ) :
      Change sha l generation (.run i false) rx (rx.cancelRequest [] true)

/-- What an event makes of the transfer under way: nothing, an end, a new one, or a change. -/
inductive Transfers (sha : Sha256) (l : IncomingLink) (e : IncomingEvent) :
    Option (ℕ × IncomingResourceAsm) → Prop
  | same {current : Option (ℕ × IncomingResourceAsm)} (h : current = l.incomingRx) :
      Transfers sha l e current
  | ended : Transfers sha l e none
  | started {adv : ResourceAdvertisement} {admitted : Bool} (h : e = .advertisement adv admitted) :
      Transfers sha l e (some (l.started,
        .new adv (hashmapEntriesPerSegment l.mdu) l.lastResourceWindow))
  | changed {generation : ℕ} {rx rx' : IncomingResourceAsm}
      (hrx : l.incomingRx = some (generation, rx)) (h : Change sha l generation e rx rx') :
      Transfers sha l e (some (generation, rx'))

/-! ## What an event makes of the rest of the link -/

def remaining (l : IncomingLink) : IncomingEvent → List IncomingTask
  | .run i _ => l.tasks.eraseIdx i
  | _ => l.tasks

/-- **What one event can do beside**: tasks are added, where no request names a part twice, and
something is handed on only when a part completes the transfer. -/
structure Frame (sha : Sha256) (l : IncomingLink) (e : IncomingEvent) (l' : IncomingLink) :
    Prop where
  mdu : l'.mdu = l.mdu
  tasks : ∃ more, l'.tasks = l.remaining e ++ more ∧
    ∀ watchdog generation idx exhausted,
      .reqSending watchdog generation idx exhausted ∈ more → idx.Nodup
  delivered : l'.delivered = l.delivered ∨ ∃ data generation rx inner,
    e = .part data ∧ l.incomingRx = some (generation, rx) ∧
      rx.appendIncomingResourcePart sha data = .complete inner ∧
      l'.delivered = l.delivered ++ [(rx.adv, inner)]

/-- **What one event can do to the link.** -/
structure Outcome (sha : Sha256) (l : IncomingLink) (e : IncomingEvent) (l' : IncomingLink) :
    Prop extends Frame sha l e l' where
  transfer : Transfers sha l e l'.incomingRx

section

variable {sha : Sha256} {l : IncomingLink} {generation : ℕ} {rx rx' : IncomingResourceAsm}

lemma Outcome.of_eq {e : IncomingEvent} {l' : IncomingLink} (hmdu : l'.mdu = l.mdu)
    (htasks : l'.tasks = l.remaining e) (hdelivered : l'.delivered = l.delivered)
    (htransfer : Transfers sha l e l'.incomingRx) : Outcome sha l e l' :=
  ⟨⟨hmdu, ⟨[], by simp [htasks], by simp⟩, .inl hdelivered⟩, htransfer⟩

lemma transfers_cancelled {i : ℕ} {sending : ℕ} {idx : List ℕ} {exhausted : Bool}
    (h : ∀ rx, Change sha l sending (.run i false) rx (rx.cancelRequest idx exhausted)) :
    Transfers sha l (.run i false) (l.incomingRx.map fun rx =>
      if rx.1 = sending then (rx.1, rx.2.cancelRequest idx exhausted) else rx) := by
  cases hl : l.incomingRx with
  | none => exact .ended
  | some current =>
    rw [Option.map_some]
    split_ifs with hgeneration
    · subst hgeneration
      exact .changed hl (h current.2)
    · exact .same hl.symm

lemma outcome_runTask {i : ℕ} {sent : Bool} {task : IncomingTask}
    (htask : l.tasks[i]? = some task) :
    Outcome sha l (.run i sent) ({ l with tasks := l.tasks.eraseIdx i }.runTask sent task) := by
  cases task with
  | reqNext watchdog =>
    simp only [runTask]
    cases hl : l.incomingRx with
    | none => exact .of_eq rfl rfl rfl (.same hl.symm)
    | some current =>
      simp only
      cases hreq : current.2.sendIncomingResourceReqNext with
      | error err =>
        exact ⟨⟨rfl, ⟨_, rfl, by cases watchdog <;> simp [afterFailure]⟩, .inl rfl⟩, .same hl.symm⟩
      | ok req =>
        cases req with
        | none => exact .of_eq rfl rfl rfl (.same hl.symm)
        | some req =>
          obtain ⟨hidx, hasm⟩ := sendIncomingResourceReqNext_spec hreq
          have hnodup : req.requestedIdx.Nodup := by
            rw [hidx]
            exact (nextRequests_spec current.2).1
          refine ⟨⟨rfl, ⟨_, rfl, by simp_all⟩, .inl rfl⟩, .changed hl ?_⟩
          rw [hasm, hidx]
          exact .requested current.2 i sent req.exhausted
  | reqSending watchdog generation idx exhausted =>
    cases sent with
    | true => exact .of_eq rfl rfl rfl (.same rfl)
    | false =>
      exact ⟨⟨rfl, ⟨_, rfl, by cases watchdog <;> simp [afterFailure]⟩, .inl rfl⟩,
        transfers_cancelled fun _ => .cancelled htask⟩
  | prefetch =>
    simp only [runTask]
    cases hl : l.incomingRx with
    | none => exact .of_eq rfl rfl rfl (.same hl.symm)
    | some current =>
      simp only
      cases hreq : current.2.sendIncomingResourceHMUPrefetch with
      | error err => exact .of_eq rfl rfl rfl (.same hl.symm)
      | ok req =>
        cases req with
        | none => exact .of_eq rfl rfl rfl (.same hl.symm)
        | some req =>
          refine ⟨⟨rfl, ⟨_, rfl, by simp⟩, .inl rfl⟩, .changed hl ?_⟩
          rw [sendIncomingResourceHMUPrefetch_asm hreq]
          exact .prefetched current.2 i sent
  | prefetchSending generation =>
    cases sent with
    | true => exact .of_eq rfl rfl rfl (.same rfl)
    | false => exact .of_eq rfl rfl rfl (transfers_cancelled fun rx => .uncancelled rx i)
  | reset => exact .of_eq rfl rfl rfl .ended

lemma outcome_part (data : Bytes) : Outcome sha l (.part data) (l.handleResourcePart sha data) := by
  rw [handleResourcePart]
  cases hl : l.incomingRx with
  | none => exact .of_eq rfl rfl rfl (.same rfl)
  | some current =>
    obtain ⟨generation, rx⟩ := current
    simp only
    cases hpart : rx.appendIncomingResourcePart sha data with
    | error err | ignored => exact .of_eq rfl rfl rfl (.same rfl)
    | complete inner =>
      exact ⟨⟨rfl, ⟨[], by simp [remaining], by simp⟩,
        .inr ⟨data, generation, rx, inner, rfl, hl, hpart, rfl⟩⟩, .ended⟩
    | stored rx' prefetchHMU needRefill =>
      refine ⟨⟨rfl, ⟨_, append_assoc _ _ _, ?_⟩, .inl rfl⟩, .changed hl ?_⟩
      · cases prefetchHMU <;> cases needRefill <;> simp
      · rcases rx.appendIncomingResourcePart_cases sha data with
          (heq | ⟨err, heq⟩) | ⟨-, heq⟩ | ⟨idx, hdata, hslot, heq⟩
        · cases hpart.symm.trans heq
        · cases hpart.symm.trans heq
        · cases hpart.symm.trans heq
        · rw [hpart, afterPart] at heq
          split_ifs at heq
          · obtain ⟨rfl, -, -⟩ := PartOutcome.stored.inj heq
            exact .grown hdata hslot
          · obtain ⟨rfl, -, -⟩ := PartOutcome.stored.inj heq
            exact .stored hdata hslot

/-- **What one event does**, to the transfer under way and beside. -/
lemma outcome_step (sha : Sha256) (l : IncomingLink) (e : IncomingEvent) :
    Outcome sha l e (l.step sha e) := by
  cases e with
  | advertisement adv admitted =>
    simp only [step]
    cases hbegin : l.beginIncomingResource adv admitted with
    | error err => exact ⟨⟨rfl, ⟨_, rfl, by simp⟩, .inl rfl⟩, .same rfl⟩
    | ok l' =>
      obtain ⟨-, -, -, rfl⟩ := beginIncomingResource_ok hbegin
      exact ⟨⟨rfl, ⟨_, rfl, by simp⟩, .inl rfl⟩, .started rfl⟩
  | part data => exact outcome_part data
  | hashmapUpdate resHash segment b =>
    simp only [step, applyIncomingHashmapUpdate]
    cases hl : l.incomingRx with
    | none => exact .of_eq rfl rfl rfl (.same rfl)
    | some current =>
      simp only
      split_ifs with hskip
      · exact .of_eq rfl rfl rfl (.same rfl)
      · exact ⟨⟨rfl, ⟨_, rfl, by simp⟩, .inl rfl⟩, .same hl.symm⟩
      · simp only [not_or, not_not, Bool.not_eq_true', Bool.not_eq_false] at hskip
        obtain ⟨rfl, hwait⟩ := hskip
        exact ⟨⟨rfl, ⟨_, rfl, by simp⟩, .inl rfl⟩, .changed hl (.updated hwait)⟩
  | reset => exact .of_eq rfl rfl rfl .ended
  | tick watched graceElapsed =>
    simp only [step, tickIncomingResourceWatchdog]
    cases hl : l.incomingRx with
    | none => exact .of_eq rfl rfl rfl (.same rfl)
    | some current =>
      simp only
      by_cases hskip : current.1 ≠ watched ∨ (!graceElapsed)
      · rw [if_pos hskip]
        exact .of_eq rfl rfl rfl (.same rfl)
      · obtain rfl : current.1 = watched := not_not.1 (not_or.1 hskip).1
        split_ifs
        · exact .of_eq rfl rfl rfl (.same rfl)
        · exact ⟨⟨rfl, ⟨_, rfl, by simp⟩, .inl rfl⟩, .changed hl (.stalled _ _)⟩
        · exact ⟨⟨rfl, ⟨_, rfl, by simp⟩, .inl rfl⟩, .changed hl (.stalled _ _)⟩
  | run i sent =>
    simp only [step]
    cases htask : l.tasks[i]? with
    | none =>
      have hlen : l.tasks.length ≤ i := getElem?_eq_none_iff.1 htask
      exact .of_eq rfl (eraseIdx_of_length_le hlen).symm rfl (.same rfl)
    | some task => exact outcome_runTask htask

lemma frame_step (sha : Sha256) (l : IncomingLink) (e : IncomingEvent) :
    Frame sha l e (l.step sha e) :=
  (outcome_step sha l e).toFrame

lemma change_step {e : IncomingEvent} (h : (l.step sha e).incomingRx = some (generation, rx')) :
    l.incomingRx = some (generation, rx') ∨
      (∃ adv admitted, e = .advertisement adv admitted ∧
        rx' = .new adv (hashmapEntriesPerSegment l.mdu) l.lastResourceWindow) ∨
      ∃ rx, l.incomingRx = some (generation, rx) ∧ Change sha l generation e rx rx' := by
  have htransfer := (outcome_step sha l e).transfer
  rw [h] at htransfer
  cases htransfer with
  | same hsame => exact .inl hsame.symm
  | started he => exact .inr (.inl ⟨_, _, he, rfl⟩)
  | changed hrx hchange => exact .inr (.inr ⟨_, hrx, hchange⟩)

def Holds (P : IncomingResourceAsm → Prop) (l : IncomingLink) : Prop :=
  ∀ generation rx, l.incomingRx = some (generation, rx) → P rx

/-- **The invariant rule of transfers.**  What every new transfer has, and every allowed change of a
transfer keeps, the transfer under way has in every state of an allowed run. -/
theorem transfers_always {P : IncomingResourceAsm → Prop} {mtu mdu : ℤ}
    {allowed : IncomingLink → IncomingEvent → Prop}
    (hnew : ∀ l adv admitted last, allowed l (.advertisement adv admitted) →
      P (.new adv (hashmapEntriesPerSegment mdu) last))
    (hchange : ∀ l generation e rx rx', allowed l e → l.incomingRx = some (generation, rx) →
      Change sha l generation e rx rx' → P rx → P rx')
    {events : List IncomingEvent} (h : Run.Along (step sha) allowed (new mtu mdu) events) :
    Run.Always (step sha) (Holds P) (new mtu mdu) events := by
  -- The segments of the hashmap are cut by the `mdu`, which no event changes.
  let I l : Prop := l.mdu = mdu ∧ Holds P l
  have hinit : I (new mtu mdu) := by simp [I, Holds, new]
  refine (Run.always_of_along (fun l e hl he => ?_) hinit h).mono fun _ hl => hl.2
  refine ⟨(frame_step sha l e).mdu.trans hl.1, fun generation rx' hrx' => ?_⟩
  rcases change_step hrx' with hsame | ⟨adv, admitted, rfl, rfl⟩ | ⟨rx, hrx, hch⟩
  · exact hl.2 generation rx' hsame
  · rw [hl.1]
    exact hnew l adv admitted l.lastResourceWindow he
  · exact hchange l generation e rx rx' he hrx hch (hl.2 generation rx hrx)

end

end IncomingLink

end Reticulum

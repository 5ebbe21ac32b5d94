import Reticulum.Link.IncomingResource

/-!
# The books of an incoming resource

What a transfer keeps about itself, in every state of every run:

* its windows (**`windowed`**);
* the parts in flight (**`accounted_of_billed`**), unless a part that was not requested is taken off
  the counter (`strayRun_not_accounted`), or a request that could not be sent takes off parts that
  have arrived;
* the index of the map hashes (**`looksUp_of_fitting`**), unless an update replaces a map hash
  (`overwrittenRun_not_looksUp`), or equal ones become known out of order.
-/

namespace Reticulum

open Resource.Constants IncomingResourceAsm List

namespace IncomingResourceAsm

variable {rx : IncomingResourceAsm} {idx : ℕ}

def Windowed (rx : IncomingResourceAsm) : Prop :=
  2 ≤ rx.windowMin ∧ rx.windowMin ≤ rx.window ∧ rx.window ≤ rx.windowMax ∧ rx.windowMax ≤ 75

lemma Windowed.growIncomingResourceWindow (h : Windowed rx) :
    Windowed rx.growIncomingResourceWindow := by
  simp only [Windowed, IncomingResourceAsm.growIncomingResourceWindow] at h ⊢
  split_ifs
  · dsimp only
    omega
  · dsimp only
    omega
  · exact h

lemma Windowed.stall (h : Windowed rx) : Windowed rx.stall := by
  have hshrink : incomingResourceWindowShrinkStalls = 2 := rfl
  have hmax : incomingResourceWindowMaxShrinkStalls = 3 := rfl
  simp only [Windowed, IncomingResourceAsm.stall] at h ⊢
  split_ifs <;> omega

lemma Windowed.new (adv : ResourceAdvertisement) (segLen last : ℕ) :
    Windowed (new adv segLen last) := by
  have hstart : 2 ≤ startIncomingWindow last 2 75 10 ∧ startIncomingWindow last 2 75 10 ≤ 75 := by
    rw [startIncomingWindow]
    split_ifs <;> omega
  obtain ⟨height, hashes, index, hframe⟩ :=
    applyHashmapSegment_frame (blank adv segLen) 0 adv.hashmap
  rw [IncomingResourceAsm.new, hframe]
  exact ⟨le_rfl, hstart.1, hstart.2, le_rfl⟩

/-! ## Parts in flight -/

/-- The outstanding parts are those in flight, and these are missing. -/
def Accounted (rx : IncomingResourceAsm) : Prop :=
  rx.outstandingParts = rx.inflight.card ∧ ∀ i ∈ rx.inflight, rx.partSlots i = none

lemma Accounted.storePart (h : Accounted rx) (data : Bytes)
    (hidx : idx ∈ rx.inflight ∨ rx.outstandingParts = 0) : Accounted (rx.storePart idx data) := by
  have hnone : ∀ i ∈ rx.inflight.erase idx, (rx.storePart idx data).partSlots i = none := by
    intro i hi
    rw [Finset.mem_erase] at hi
    simp [IncomingResourceAsm.storePart, Function.update_of_ne hi.1, h.2 i hi.2]
  refine ⟨?_, hnone⟩
  have hcard := h.1
  rcases hidx with hin | hzero
  · simp [IncomingResourceAsm.storePart, Finset.card_erase_of_mem hin, hcard]
  · rw [hzero, eq_comm, Finset.card_eq_zero] at hcard
    simp [IncomingResourceAsm.storePart, hzero, hcard]

lemma Accounted.issue (h : Accounted rx) {idx : List ℕ} (hnodup : idx.Nodup)
    (hnew : ∀ pn ∈ idx, pn ∉ rx.inflight ∧ rx.partSlots pn = none) (exhausted : Bool) :
    Accounted (rx.issue idx exhausted) := by
  have hdisj : Disjoint rx.inflight idx.toFinset := by
    rw [Finset.disjoint_right]
    intro pn hpn
    exact (hnew pn (mem_toFinset.1 hpn)).1
  refine ⟨?_, ?_⟩
  · simp [IncomingResourceAsm.issue, Finset.card_union_of_disjoint hdisj,
      toFinset_card_of_nodup hnodup, h.1]
  · intro i hi
    simp only [IncomingResourceAsm.issue, Finset.mem_union, mem_toFinset] at hi
    rcases hi with hi | hi
    · exact h.2 i hi
    · exact (hnew i hi).2

lemma Accounted.cancelRequest (h : Accounted rx) {idx : List ℕ} (hnodup : idx.Nodup)
    (hidx : idx.toFinset ⊆ rx.inflight ∨ rx.inflight ⊆ idx.toFinset) (exhausted : Bool) :
    Accounted (rx.cancelRequest idx exhausted) := by
  refine ⟨?_, fun i hi => h.2 i (Finset.mem_sdiff.1 hi).1⟩
  have hcard := toFinset_card_of_nodup hnodup
  rcases hidx with hsub | hsub
  · simp [IncomingResourceAsm.cancelRequest, Finset.card_sdiff_of_subset hsub, h.1, hcard]
  · have hle := Finset.card_le_card hsub
    simp only [IncomingResourceAsm.cancelRequest, Finset.sdiff_eq_empty_iff_subset.2 hsub,
      Finset.card_empty, h.1]
    omega

/-! ## The index of the map hashes -/

/-- The index finds the first empty slot in a range with a given map hash, if there is one. -/
def LooksUp (rx : IncomingResourceAsm) : Prop :=
  ∀ mh lo hi i, rx.lookupMapHash mh lo hi = some i ↔
    IsLeast {j | lo ≤ j ∧ j < hi ∧ rx.mapHashes j = some mh ∧ rx.partSlots j = none} i

structure Indexed (rx : IncomingResourceAsm) : Prop where
  index : ∀ mh, mh.length = mapHashLen →
    rx.hashIndex mh = (range rx.totalParts).filter fun i => rx.mapHashes i = some mh
  known : ∀ i mh, rx.mapHashes i = some mh → i < rx.totalParts ∧ mh.length = mapHashLen

lemma Indexed.looksUp (h : Indexed rx) : LooksUp rx := by
  intro mh lo hi i
  by_cases hmh : mh.length = mapHashLen
  · simp only [lookupMapHash, hmh, h.index mh hmh, find?_filter, ne_eq, not_true_eq_false,
      if_false, find?_range_eq_some, IsLeast, lowerBounds, decide_eq_true_eq, Bool.and_eq_true,
      Option.isNone_iff_eq_none, Bool.not_eq_true', decide_eq_false_iff_not, mem_range]
    constructor
    · rintro ⟨⟨hhash, hrange, hslot⟩, -, hleast⟩
      refine ⟨⟨hrange.1, hrange.2, hhash, hslot⟩, ?_⟩
      rintro j ⟨hlo, hhi, hj, hempty⟩
      exact not_lt.1 fun hlt => hleast j hlt ⟨hj, ⟨hlo, hhi⟩, hempty⟩
    · rintro ⟨⟨hlo, hhi, hhash, hslot⟩, hleast⟩
      refine ⟨⟨hhash, ⟨hlo, hhi⟩, hslot⟩, (h.known i mh hhash).1, ?_⟩
      rintro j hlt ⟨hj, hrange, hempty⟩
      exact hlt.not_ge (hleast ⟨hrange.1, hrange.2, hj, hempty⟩)
  · simp only [lookupMapHash, ne_eq, hmh, not_false_eq_true, if_true, reduceCtorEq, false_iff]
    exact fun hleast => hmh (h.known i mh hleast.1.2.2.1).2

/-- The map hashes, from slot `idx` on, replace none and come behind every equal one. -/
def Fits (rx : IncomingResourceAsm) (idx : ℕ) (l : List Bytes) : Prop :=
  ∀ p ∈ l.zipIdx idx, p.2 < rx.totalParts → rx.mapHashes p.2 = some p.1 ∨
    rx.mapHashes p.2 = none ∧ ∀ j < rx.totalParts, p.2 < j → rx.mapHashes j ≠ some p.1

lemma filter_range_insert {p : ℕ → Bool} {n : ℕ} (hidx : idx < n)
    (hp : ∀ j < n, idx ≤ j → p j = false) :
    (range n).filter (fun j => j = idx || p j) = (range n).filter p ++ [idx] := by
  induction n with
  | zero => omega
  | succ n ih =>
    simp only [range_succ]
    rcases Nat.lt_succ_iff_lt_or_eq.1 hidx with hlt | rfl
    · simp [ih hlt fun j hj => hp j (by omega), hp n (by omega) hlt.le, hlt.ne']
    · have hsame : (range idx).filter (fun j => j = idx || p j) =
          (range idx).filter p := by
        refine filter_congr fun j hj => ?_
        simp [(mem_range.1 hj).ne]
      simp [hsame, hp idx (by omega) le_rfl]

lemma Indexed.setMapHash (h : Indexed rx) (hidx : idx < rx.totalParts) {mh : Bytes}
    (hmh : mh.length = mapHashLen) (hfits : rx.mapHashes idx = some mh ∨
      rx.mapHashes idx = none ∧ ∀ j < rx.totalParts, idx < j → rx.mapHashes j ≠ some mh) :
    Indexed (rx.setMapHash idx mh) := by
  have hknown : ∀ i m, Function.update rx.mapHashes idx (some mh) i = some m →
      i < rx.totalParts ∧ m.length = mapHashLen := by
    intro i m hm
    rcases eq_or_ne i idx with rfl | hne
    · simp_all
    · rw [Function.update_of_ne hne] at hm
      exact h.known i m hm
  rcases hfits with hsame | ⟨hnone, hlast⟩
  · have hin : idx ∈ rx.hashIndex mh := by
      rw [h.index mh hmh]
      simp [hidx, hsame]
    simp only [IncomingResourceAsm.setMapHash, indexMapHash, hin, or_true]
    rw [← hsame, Function.update_eq_self]
    exact ⟨h.index, h.known⟩
  · have hnew : idx ∉ rx.hashIndex mh := by
      rw [h.index mh hmh]
      simp [hnone]
    simp only [IncomingResourceAsm.setMapHash, indexMapHash, hmh, hnew, ne_eq,
      not_true_eq_false, or_self, if_false]
    refine ⟨fun m hm => ?_, hknown⟩
    dsimp only
    rcases eq_or_ne m mh with rfl | hne
    · rw [Function.update_self, h.index m hm, ← filter_range_insert hidx]
      · refine filter_congr fun j _ => ?_
        rcases eq_or_ne j idx with rfl | hj
        · simp
        · simp [hj]
      · intro j hj hle
        rcases hle.eq_or_lt with rfl | hlt
        · simp [hnone]
        · simp [hlast j hj hlt]
    · rw [Function.update_of_ne hne, h.index m hm]
      refine filter_congr fun j _ => ?_
      rcases eq_or_ne j idx with rfl | hj
      · simp [hnone, hne.symm]
      · simp [Function.update_of_ne hj]

lemma Indexed.setMapHashes {l : List Bytes} (h : Indexed rx) (hl : ∀ mh ∈ l, mh.length = mapHashLen)
    (hfits : rx.Fits idx l) : Indexed (rx.setMapHashes idx l) := by
  induction l generalizing rx idx with
  | nil => exact h
  | cons mh rest ih =>
    rw [setMapHashes]
    split_ifs with htotal
    · exact h
    · simp only [Fits, zipIdx_cons, forall_mem_cons] at hl hfits
      refine ih (h.setMapHash (not_le.1 htotal) hl.1 (hfits.1 (not_le.1 htotal))) hl.2 ?_
      -- What has been stored is in front of what is still to come.
      obtain ⟨index, hframe⟩ := setMapHash_frame rx idx mh
      rw [hframe]
      intro p hp htotal'
      have hlt : idx < p.2 := (mem_zipIdx hp).1
      simp only [Function.update_of_ne hlt.ne']
      refine (hfits.2 p hp htotal').imp_right fun hnone => ⟨hnone.1, fun j hj hlt' => ?_⟩
      rw [Function.update_of_ne (hlt.trans hlt').ne']
      exact hnone.2 j hj hlt'

lemma Indexed.applyHashmapSegment (h : Indexed rx) {segment : ℤ} {b : Bytes}
    (hfits : 0 ≤ segment → segment ≤ maxInt / rx.segLen →
      rx.Fits (segment.toNat * rx.segLen) (mapHashesOf b)) :
    Indexed (rx.applyHashmapSegment segment b) := by
  rw [IncomingResourceAsm.applyHashmapSegment]
  split_ifs with hignored
  · exact h
  · rw [not_or, not_lt, not_lt] at hignored
    exact h.setMapHashes (fun mh => length_of_mem_mapHashesOf) (hfits hignored.1 hignored.2)

lemma Indexed.new (adv : ResourceAdvertisement) (segLen last : ℕ) :
    Indexed (new adv segLen last) := by
  have hblank : Indexed (blank adv segLen) := by
    constructor <;> simp [blank]
  have h : Indexed ((blank adv segLen).applyHashmapSegment 0 adv.hashmap) :=
    hblank.applyHashmapSegment fun _ _ p _ _ => .inr ⟨rfl, by simp [blank]⟩
  exact ⟨h.index, h.known⟩

end IncomingResourceAsm

/-- The transfer and the parts that a task takes back if its request cannot be sent. -/
def IncomingTask.requested : IncomingTask → Option (ℕ × List ℕ)
  | .reqSending _ generation requestedIdx _ => some (generation, requestedIdx)
  | _ => none

namespace IncomingLink

variable {sha : Sha256} {l : IncomingLink}

/-! ## Windows -/

/-- **The receive window stays in bounds**, whatever happens. -/
theorem windowed (sha : Sha256) (mtu mdu : ℤ) (events : List IncomingEvent) :
    Run.Always (step sha) (Holds Windowed) (new mtu mdu) events := by
  have hany : Run.Along (step sha) (fun _ _ => True) (new mtu mdu) events :=
    Run.along_of_forall fun _ _ => trivial
  refine transfers_always (fun _ adv _ last _ => .new adv _ last) ?_ hany
  intro l generation e rx rx' _ _ hch h
  cases hch with
  | stored | requested | prefetched | cancelled | uncancelled => exact h
  | grown => exact .growIncomingResourceWindow h
  | @updated _ segment b _ =>
    obtain ⟨height, hashes, index, hframe⟩ := applyHashmapSegment_frame rx segment b
    rw [hframe]
    exact h
  | stalled => exact h.stall

/-! ## Parts in flight -/

/-- The event keeps the account of the parts in flight.
* A part goes into a slot that is in flight, unless nothing is outstanding.
* When a request cannot be sent, all its parts are in flight still, or no others are. -/
def Billed (sha : Sha256) (l : IncomingLink) : IncomingEvent → Prop
  | .part data => ∀ current ∈ l.incomingRx,
      ∀ idx ∈ current.2.findSlot (sha.mapHash current.2.adv.randomHash data),
        idx ∈ current.2.inflight ∨ current.2.outstandingParts = 0
  | .run i sent => sent = false → ∀ request ∈ l.tasks[i]?.bind IncomingTask.requested,
      ∀ current ∈ l.incomingRx, current.1 = request.1 →
        request.2.toFinset ⊆ current.2.inflight ∨ current.2.inflight ⊆ request.2.toFinset
  | _ => True

instance decidableBilled (sha : Sha256) (l : IncomingLink) (e : IncomingEvent) :
    Decidable (Billed sha l e) := by
  cases e <;> unfold Billed <;> infer_instance

def NoRepeats (l : IncomingLink) : Prop :=
  ∀ watchdog generation idx exhausted,
    .reqSending watchdog generation idx exhausted ∈ l.tasks → idx.Nodup

lemma NoRepeats.step (h : NoRepeats l) (e : IncomingEvent) : NoRepeats (l.step sha e) := by
  obtain ⟨more, htasks, hmore⟩ := (frame_step sha l e).tasks
  intro watchdog generation idx exhausted hmem
  rw [htasks, mem_append] at hmem
  rcases hmem with hmem | hmem
  · refine h watchdog generation idx exhausted ?_
    cases e with
    | run i sent => exact mem_of_mem_eraseIdx hmem
    | _ => exact hmem
  · exact hmore watchdog generation idx exhausted hmem

/-- **In-flight accounting.**  In a run that keeps the account, the outstanding parts are exactly
those in flight, and these are missing. -/
theorem accounted_of_billed (sha : Sha256) (mtu mdu : ℤ) (events : List IncomingEvent)
    (h : Run.Along (step sha) (Billed sha) (new mtu mdu) events) :
    Run.Always (step sha) (Holds Accounted) (new mtu mdu) events := by
  have hall : Run.Along (step sha) (fun l e => NoRepeats l ∧ Billed sha l e) (new mtu mdu) events :=
    Run.along_mono (fun _ e hl _ => hl.step e) (fun _ _ hl he => ⟨hl, he⟩)
      (by simp [NoRepeats, new]) h
  refine transfers_always (fun _ adv _ last _ => ?_) ?_ hall
  · obtain ⟨height, hashes, index, hframe⟩ :=
      applyHashmapSegment_frame (blank adv (hashmapEntriesPerSegment mdu)) 0 adv.hashmap
    rw [IncomingResourceAsm.new, hframe]
    simp [Accounted, blank]
  intro l generation e rx rx' he hrx hch hrx'
  cases hch with
  | stored hdata hslot => exact hrx'.storePart _ (he.2 _ hrx _ hslot)
  | @grown _ _ data hdata hslot =>
    have hstored := hrx'.storePart data (he.2 _ hrx _ hslot)
    rw [growIncomingResourceWindow]
    split_ifs
    · exact hstored
    · exact hstored
  | @updated _ segment b _ =>
    obtain ⟨height, hashes, index, hframe⟩ := applyHashmapSegment_frame rx segment b
    rw [hframe]
    exact hrx'
  | stalled => simp [Accounted, stall]
  | requested =>
    obtain ⟨hnodup, hnew⟩ := nextRequests_spec rx
    exact hrx'.issue hnodup (fun pn hpn => ⟨(hnew pn hpn).1, (hnew pn hpn).2.1⟩) _
  | prefetched => exact hrx'.issue nodup_nil (by simp) _
  | @cancelled _ i watchdog exhausted idx htask =>
    have hnodup := he.1 _ _ _ _ (mem_of_getElem? htask)
    refine hrx'.cancelRequest hnodup ?_ _
    exact he.2 rfl (generation, idx) (by simp [htask, IncomingTask.requested]) _ hrx rfl
  | uncancelled => exact hrx'.cancelRequest nodup_nil (by simp) _

/-- The second of two parts arrives after its map hash and before it is requested, while the first
is in flight. -/
def strayRun : List IncomingEvent :=
  [.advertisement (.plain 6 2 [9, 9, 9, 9] [1, 2, 3, 4]) true, .run 0 true,
    .hashmapUpdate [] 1 [5, 6, 9, 9], .part [5, 6]]

/-- Both parts are requested, but the request cannot be sent; the transfer starts again, and the
second part arrives. -/
def billedRun : List IncomingEvent :=
  let twice := .advertisement (.plain 6 2 [9, 9, 9, 9] [1, 2, 3, 4, 5, 6, 9, 9]) true
  [twice, .run 0 true, .run 0 false, twice, .run 0 true, .run 0 true, .part [5, 6]]

theorem accounted_billedRun :
    Run.Along (step Sha256.padded) (Billed Sha256.padded) (new 40 4) billedRun ∧
      Run.Always (step Sha256.padded) (Holds Accounted) (new 40 4) billedRun :=
  have h : Run.Along (step .padded) (Billed .padded) (new 40 4) billedRun := by
    decide +kernel
  ⟨h, accounted_of_billed .padded 40 4 billedRun h⟩

/-- The counter says that nothing is outstanding while the first part is in flight. -/
theorem strayRun_not_accounted :
    ¬ Run.Always (step Sha256.padded) (Holds Accounted) (new 40 4) strayRun := by
  intro h
  have hbooks : (Run.exec (step .padded) (new 40 4) strayRun).incomingRx.map
      (fun current => (current.2.outstandingParts, current.2.inflight)) = some (0, {0}) := by
    decide +kernel
  obtain ⟨⟨generation, rx⟩, hrx, heq⟩ := Option.map_eq_some_iff.1 hbooks
  have hcard : rx.outstandingParts = rx.inflight.card := (h.last generation rx hrx).1
  simp_all

/-! ## The index of the map hashes -/

/-- A hashmap update that is not ignored replaces no map hash and adds none in front of an equal
one. -/
def Fitting (l : IncomingLink) : IncomingEvent → Prop
  | .hashmapUpdate resHash segment b => ∀ current ∈ l.incomingRx,
      resHash = current.2.adv.hash ∧ current.2.waitingForHmu →
      0 ≤ segment → segment ≤ maxInt / current.2.segLen →
        current.2.Fits (segment.toNat * current.2.segLen) (mapHashesOf b)
  | _ => True

instance decidableFitting (l : IncomingLink) (e : IncomingEvent) : Decidable (Fitting l e) := by
  cases e <;> unfold Fitting <;> try unfold Fits
  all_goals infer_instance

/-- **The index agrees with a scan** in every run of fitting updates. -/
theorem looksUp_of_fitting (sha : Sha256) (mtu mdu : ℤ) (events : List IncomingEvent)
    (h : Run.Along (step sha) Fitting (new mtu mdu) events) :
    Run.Always (step sha) (Holds LooksUp) (new mtu mdu) events := by
  refine (transfers_always (P := Indexed) (fun _ adv _ last _ => .new adv _ last) ?_ h).mono
    fun _ hl generation rx hrx => (hl generation rx hrx).looksUp
  intro l generation e rx rx' he hrx hch hrx'
  cases hch with
  | grown =>
    rw [growIncomingResourceWindow]
    split_ifs
    · exact ⟨hrx'.index, hrx'.known⟩
    · exact ⟨hrx'.index, hrx'.known⟩
  | updated hwait =>
    have hupdated := hrx'.applyHashmapSegment (he _ hrx ⟨rfl, hwait⟩)
    exact ⟨hupdated.index, hupdated.known⟩
  | _ => exact ⟨hrx'.index, hrx'.known⟩

def overwrittenRun : List IncomingEvent :=
  [.advertisement (.plain 6 2 [9, 9, 9, 9] [1, 2, 3, 4]) true, .run 0 true,
    .hashmapUpdate [] 0 [5, 6, 7, 8]]

def repeatedRun : List IncomingEvent :=
  [.advertisement (.plain 6 2 [9, 9, 9, 9] [1, 2, 3, 4]) true, .run 0 true,
    .hashmapUpdate [] 0 [1, 2, 3, 4, 1, 2, 3, 4], .hashmapUpdate [] 0 [5, 6, 7, 8]]

/-- The second update is not waited for. -/
theorem looksUp_repeatedRun :
    Run.Along (step Sha256.padded) Fitting (new 40 4) repeatedRun ∧
      Run.Always (step Sha256.padded) (Holds LooksUp) (new 40 4) repeatedRun :=
  have h : Run.Along (step .padded) Fitting (new 40 4) repeatedRun := by decide +kernel
  ⟨h, looksUp_of_fitting .padded 40 4 repeatedRun h⟩

/-- The replaced map hash is still found. -/
theorem overwrittenRun_not_looksUp :
    ¬ Run.Always (step Sha256.padded) (Holds LooksUp) (new 40 4) overwrittenRun := by
  intro h
  have hbooks : (Run.exec (step .padded) (new 40 4) overwrittenRun).incomingRx.map
      (fun current => (current.2.lookupMapHash [1, 2, 3, 4] 0 2, current.2.mapHashes 0)) =
        some (some 0, some [5, 6, 7, 8]) := by
    decide +kernel
  obtain ⟨⟨generation, rx⟩, hrx, heq⟩ := Option.map_eq_some_iff.1 hbooks
  obtain ⟨hfound, hhash⟩ := Prod.mk.inj heq
  have hleast := (h.last generation rx hrx [1, 2, 3, 4] 0 2 0).1 hfound
  simp_all [IsLeast]

end IncomingLink

end Reticulum

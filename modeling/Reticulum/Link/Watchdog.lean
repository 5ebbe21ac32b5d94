import Reticulum.Link.IncomingResource

/-!
# The watchdog and zombie transfers

The watchdog of an incoming transfer leaves a transfer alone that neither waits for a hashmap update
nor has parts outstanding, trusting that the next request is queued already.  A transfer in such a
state with nothing queued is a **zombie**: no request is ever sent for it again, and it is never
given up.  While the books are in order (`Sound`) the next request finds something to ask for:
**`noZombie_of_orderly`**.
-/

namespace Reticulum

variable {data : Bytes} {segment : ℤ}

open Resource.Constants Option IncomingResourceAsm List

namespace IncomingResourceAsm

variable {rx : IncomingResourceAsm}

/-! ## Known map hashes -/

/-- The known map hashes are the first `hashmapHeight` many. -/
structure KnownPrefix (rx : IncomingResourceAsm) : Prop where
  known : ∀ i, (rx.mapHashes i).isSome = true ↔ i < rx.hashmapHeight
  length_hash : ∀ i mh, rx.mapHashes i = some mh → mh.length = mapHashLen
  height_le : rx.hashmapHeight ≤ rx.totalParts

lemma KnownPrefix.setMapHash (h : KnownPrefix rx) {idx : ℕ} (hidx : idx ≤ rx.hashmapHeight)
    (hlt : idx < rx.totalParts) {mh : Bytes} (hmh : mh.length = mapHashLen) :
    KnownPrefix (rx.setMapHash idx mh) ∧ rx.hashmapHeight ≤ (rx.setMapHash idx mh).hashmapHeight ∧
      idx < (rx.setMapHash idx mh).hashmapHeight := by
  obtain ⟨index, hset⟩ := rx.setMapHash_frame idx mh
  rw [hset]
  have hnone : rx.mapHashes idx = none ↔ rx.hashmapHeight ≤ idx := by
    rw [← not_lt, ← h.known idx, not_isSome_iff_eq_none]
  have hlen : ∀ i m, Function.update rx.mapHashes idx (some mh) i = some m →
      m.length = mapHashLen := by
    intro i m hm
    rcases eq_or_ne i idx with rfl | hne
    · rw [Function.update_self] at hm
      rw [← some.inj hm]
      exact hmh
    · rw [Function.update_of_ne hne] at hm
      exact h.length_hash i m hm
  have hle := h.height_le
  refine ⟨⟨fun i => ?_, hlen, ?_⟩, ?_, ?_⟩
  · rcases eq_or_ne i idx with rfl | hne
    · simp only [Function.update_self, isSome_some, true_iff, hnone]
      split_ifs <;> omega
    · simp only [Function.update_of_ne hne, h.known i, hnone]
      split_ifs <;> omega
  · simp only [hnone]
    split_ifs <;> omega
  · simp only [hnone]
    split_ifs <;> omega
  · simp only [hnone]
    split_ifs <;> omega

lemma KnownPrefix.setMapHashes {l : List Bytes} (idx : ℕ) (h : KnownPrefix rx)
    (hidx : idx ≤ rx.hashmapHeight) (hlen : ∀ mh ∈ l, mh.length = mapHashLen) :
    KnownPrefix (rx.setMapHashes idx l) ∧
      rx.hashmapHeight ≤ (rx.setMapHashes idx l).hashmapHeight ∧
      (l ≠ [] → idx < rx.totalParts → idx < (rx.setMapHashes idx l).hashmapHeight) := by
  induction l generalizing rx idx with
  | nil => exact ⟨h, le_rfl, fun hne => absurd rfl hne⟩
  | cons mh rest ih =>
    rw [setMapHashes]
    split_ifs with htotal
    · exact ⟨h, le_rfl, fun _ hlt => absurd hlt (by omega)⟩
    · obtain ⟨hset, hle, hlt⟩ := h.setMapHash hidx (by omega) (hlen mh mem_cons_self)
      obtain ⟨hrest, hle', -⟩ := ih _ hset hlt fun m hm =>
        hlen m (mem_cons_of_mem _ hm)
      exact ⟨hrest, hle.trans hle', fun _ _ => hlt.trans_le hle'⟩

/-! ## Sound transfers -/

/-- The books of a transfer are in order, and it is not complete. -/
structure Sound (rx : IncomingResourceAsm) : Prop extends KnownPrefix rx where
  height_pos : 0 < rx.hashmapHeight
  slot_ne : ∀ i, rx.partSlots i ≠ some []
  prefix_eq : rx.consecutiveCompleted = consecutivePrefix rx.partSlots rx.totalParts
  outstanding_eq : rx.outstandingParts = rx.inflight.card
  missing : ∃ i < rx.totalParts, rx.partSlots i = none

def Busy (rx : IncomingResourceAsm) : Prop := rx.waitingForHmu = true ∨ 0 < rx.outstandingParts

lemma Sound.searchStart_lt (h : Sound rx) :
    rx.searchStart < rx.totalParts ∧ rx.partSlots rx.searchStart = none := by
  obtain ⟨i, hi, hnone⟩ := h.missing
  set p : ℕ → Bool := fun i => ((rx.partSlots i).getD []).length = 0 with hp
  have hstart : rx.searchStart = (range rx.totalParts).findIdx p := by
    rw [searchStart, h.prefix_eq, consecutivePrefix, ← hp]
    omega
  have hlt : (range rx.totalParts).findIdx p < (range rx.totalParts).length :=
    findIdx_lt_length_of_exists ⟨i, mem_range.2 hi, by simp [hp, hnone]⟩
  have hempty := findIdx_getElem (w := hlt)
  rw [getElem_range, ← hstart] at hempty
  rw [← hstart, length_range] at hlt
  refine ⟨hlt, ?_⟩
  cases hslot : rx.partSlots rx.searchStart with
  | none => rfl
  | some b =>
    simp only [hp, hslot, getD_some, decide_eq_true_eq, length_eq_zero_iff] at hempty
    exact absurd (hempty ▸ hslot) (h.slot_ne _)

lemma Sound.anchorHash (h : Sound rx) (noAnchor badAnchor : String) :
    ∃ anchor, rx.anchorHash noAnchor badAnchor = .ok anchor := by
  have hpos := h.height_pos
  have hle := h.height_le
  obtain ⟨mh, hmh⟩ := isSome_iff_exists.1 ((h.known (rx.hashmapHeight - 1)).2 (by omega))
  rw [IncomingResourceAsm.anchorHash, if_neg (by omega), hmh]
  simp [h.length_hash _ _ hmh]

/-- The selection looks at its first candidate: if it is missing and not in flight, it is
requested, or the next hashmap segment is, or is waited for. -/
lemma selectRequests_head {pn : ℕ} (rest : List ℕ) (n : ℕ) (hslot : rx.partSlots pn = none)
    (hin : pn ∉ rx.inflight) :
    pn ∈ (rx.selectRequests n (pn :: rest)).1 ∨ (rx.selectRequests n (pn :: rest)).2 ∨
      rx.waitingForHmu := by
  rw [selectRequests]
  split_ifs with hskip hknown hlast
  · simp [hslot, hin] at hskip
  · simp
  · simp
  · cases rx.waitingForHmu <;> simp

lemma Sound.issue (h : Sound rx) {idx : List ℕ} (hnodup : idx.Nodup)
    (hnew : ∀ pn ∈ idx, pn ∉ rx.inflight) (exhausted : Bool) : Sound (rx.issue idx exhausted) :=
  { h with
    toKnownPrefix := { h with }
    outstanding_eq := by
      have hdisj : Disjoint rx.inflight idx.toFinset := by
        rw [Finset.disjoint_right]
        intro pn hpn
        exact hnew pn (mem_toFinset.1 hpn)
      simp only [IncomingResourceAsm.issue]
      rw [Finset.card_union_of_disjoint hdisj, toFinset_card_of_nodup hnodup, h.outstanding_eq] }

/-- What is requested next is not in flight yet, has a known map hash, and is something at all,
unless a request is under way already. -/
lemma Sound.nextRequests (h : Sound rx) {idx : List ℕ} {exhausted : Bool}
    (hnext : rx.nextRequests = (idx, exhausted)) (hfull : rx.outstandingParts < rx.requestWindow) :
    idx.Nodup ∧ (∀ pn ∈ idx, pn ∉ rx.inflight ∧ (rx.mapHashes pn).isSome) ∧
      (Busy rx ∨ idx ≠ [] ∨ exhausted) := by
  obtain ⟨hstart, hslot⟩ := h.searchStart_lt
  obtain ⟨hd, hall⟩ := nextRequests_spec rx
  rw [hnext] at hd hall
  refine ⟨hd, fun pn hpn => ⟨(hall pn hpn).1, (hall pn hpn).2.2⟩, ?_⟩
  obtain ⟨l, hrange⟩ : ∃ l, range' rx.searchStart (min (rx.searchStart + rx.requestWindow * 2)
      rx.totalParts - rx.searchStart) = rx.searchStart :: l := by
    have hne : min (rx.searchStart + rx.requestWindow * 2) rx.totalParts - rx.searchStart ≠ 0 := by
      omega
    obtain ⟨n, hn⟩ := Nat.exists_eq_succ_of_ne_zero hne
    rw [hn]
    exact ⟨_, range'_succ⟩
  rw [IncomingResourceAsm.nextRequests, hrange] at hnext
  by_cases hin : rx.searchStart ∈ rx.inflight
  · exact .inl (.inr (by rw [h.outstanding_eq]; exact Finset.card_pos.2 ⟨_, hin⟩))
  · have hhead := selectRequests_head l (rx.requestWindow - rx.outstandingParts) hslot hin
    rw [hnext] at hhead
    rcases hhead with hmem | hex | hwait
    · exact .inr (.inl (ne_nil_of_mem hmem))
    · exact .inr (.inr hex)
    · exact .inl (.inl hwait)

/-- **The next request of a sound transfer** does not fail, keeps the books in order, and leaves
the transfer with a request under way. -/
lemma Sound.sendIncomingResourceReqNext (h : Sound rx) :
    (rx.sendIncomingResourceReqNext = .ok none ∧ Busy rx) ∨
      ∃ req, rx.sendIncomingResourceReqNext = .ok (some req) ∧ Sound req.asm ∧ Busy req.asm := by
  have hstart := h.searchStart_lt.1
  rw [IncomingResourceAsm.sendIncomingResourceReqNext]
  by_cases hhalf : 0 < rx.outstandingParts ∧ rx.requestWindow / 2 < rx.outstandingParts
  · exact .inl ⟨by simp [hhalf], .inr hhalf.1⟩
  by_cases hfull : rx.requestWindow ≤ rx.outstandingParts
  · have hpos : 0 < rx.requestWindow := by
      rw [requestWindow]
      split_ifs with hzero
      · decide
      · omega
    exact .inl ⟨by simp [hfull], .inr (by omega)⟩
  obtain ⟨⟨idx, exhausted⟩, hnext⟩ : ∃ next, rx.nextRequests = next := ⟨_, rfl⟩
  obtain ⟨hd, hall, hsome⟩ := h.nextRequests hnext (by omega)
  have hsound := fun e => h.issue hd (fun pn hpn => (hall pn hpn).1) e
  have hbusy : ∀ e, (exhausted = true → e = true) → Busy (rx.issue idx e) := by
    intro e he
    simp only [Busy, IncomingResourceAsm.issue, Bool.or_eq_true]
    rcases hsome with (hwait | hout) | hne | hex
    · exact .inl (.inl hwait)
    · exact .inr (by omega)
    · exact .inr (Nat.add_pos_right _ (length_pos_iff_ne_nil.2 hne))
    · exact .inl (.inr (he hex))
  simp only [hnext, if_neg hstart.not_ge]
  split_ifs with hnothing hex
  · -- no map hash was selected, so a request is under way already
    refine .inl ⟨rfl, ?_⟩
    rcases hsome with hbusy | hne | hex
    · exact hbusy
    · obtain ⟨pn, hpn⟩ := exists_mem_of_ne_nil _ hne
      obtain ⟨mh, hmh⟩ := isSome_iff_exists.1 (hall pn hpn).2
      have hnil := flatMap_eq_nil_iff.1 hnothing.1 pn hpn
      have hlen := h.length_hash _ _ hmh
      rw [hmh, getD_some] at hnil
      rw [hnil] at hlen
      exact absurd hlen (by decide)
    · rw [hnothing.2] at hex
      exact absurd hex (by decide)
  · obtain ⟨anchor, hanchor⟩ := h.anchorHash "incoming resource cannot request hashmap extension"
      "invalid last map hash for HMU request"
    rw [hanchor]
    exact .inr ⟨_, rfl, hsound true, hbusy true fun _ => rfl⟩
  · exact .inr ⟨_, rfl, hsound false, hbusy false fun he => absurd he hex⟩

lemma Sound.sendIncomingResourceHMUPrefetch (h : Sound rx) :
    rx.sendIncomingResourceHMUPrefetch = .ok none ∨
      ∃ req, rx.sendIncomingResourceHMUPrefetch = .ok (some req) ∧ Sound req.asm ∧
        Busy req.asm := by
  rw [IncomingResourceAsm.sendIncomingResourceHMUPrefetch]
  split_ifs
  · exact .inl rfl
  · exact .inl rfl
  · exact .inl rfl
  · obtain ⟨anchor, hanchor⟩ := h.anchorHash "incoming resource cannot prefetch hashmap extension"
      "invalid last map hash for HMU prefetch"
    rw [hanchor]
    refine .inr ⟨_, rfl, h.issue nodup_nil (by simp) true, .inl ?_⟩
    simp [IncomingResourceAsm.issue]

lemma Sound.stall (h : Sound rx) : Sound rx.stall := { h with
  toKnownPrefix := { h with }
  outstanding_eq := by simp [IncomingResourceAsm.stall] }

lemma KnownPrefix.applyHashmapSegment (h : KnownPrefix rx) (b : Bytes)
    (hseg : segment * rx.segLen ≤ rx.hashmapHeight) :
    KnownPrefix (rx.applyHashmapSegment segment b) ∧
      rx.hashmapHeight ≤ (rx.applyHashmapSegment segment b).hashmapHeight := by
  rw [IncomingResourceAsm.applyHashmapSegment]
  split_ifs with hignored
  · exact ⟨h, le_rfl⟩
  · obtain ⟨n, rfl⟩ : ∃ n : ℕ, segment = n := ⟨segment.toNat, by omega⟩
    have hle : n * rx.segLen ≤ rx.hashmapHeight := by exact_mod_cast hseg
    obtain ⟨hknown, hheight, -⟩ := setMapHashes (n * rx.segLen) h hle
      (fun mh hmh => length_of_mem_mapHashesOf hmh)
    exact ⟨hknown, hheight⟩

lemma Sound.applyHashmapSegment (h : Sound rx) (b : Bytes)
    (hseg : segment * rx.segLen ≤ rx.hashmapHeight) :
    Sound { rx.applyHashmapSegment segment b with waitingForHmu := false } := by
  obtain ⟨hknown, hheight⟩ := h.toKnownPrefix.applyHashmapSegment b hseg
  obtain ⟨height, hashes, index, hframe⟩ := rx.applyHashmapSegment_frame segment b
  rw [hframe] at hknown hheight ⊢
  exact
    { known := hknown.known
      length_hash := hknown.length_hash
      height_le := hknown.height_le
      height_pos := h.height_pos.trans_le hheight
      slot_ne := h.slot_ne
      prefix_eq := h.prefix_eq
      outstanding_eq := h.outstanding_eq
      missing := h.missing }

lemma Sound.storePart (h : Sound rx) {idx : ℕ} (hdata : data ≠ [])
    (hflight : rx.outstandingParts = 0 ∨ idx ∈ rx.inflight)
    (hmissing : ∃ i < rx.totalParts, (rx.storePart idx data).partSlots i = none) :
    Sound (rx.storePart idx data) where
  toKnownPrefix := { h with }
  height_pos := h.height_pos
  slot_ne i := by
    simp only [IncomingResourceAsm.storePart]
    rcases eq_or_ne i idx with rfl | hne
    · simpa using hdata
    · rw [Function.update_of_ne hne]
      exact h.slot_ne i
  prefix_eq := rfl
  outstanding_eq := by
    simp only [IncomingResourceAsm.storePart]
    rcases hflight with hzero | hin
    · have hempty : rx.inflight = ∅ := Finset.card_eq_zero.1 (h.outstanding_eq ▸ hzero)
      simp [hzero, hempty]
    · rw [Finset.card_erase_of_mem hin, h.outstanding_eq]
  missing := hmissing

lemma Sound.growIncomingResourceWindow (h : Sound rx) : Sound rx.growIncomingResourceWindow := by
  rw [IncomingResourceAsm.growIncomingResourceWindow]
  split_ifs
  · exact ⟨{ h with }, h.height_pos, h.slot_ne, h.prefix_eq,
      h.outstanding_eq, h.missing⟩
  · exact h

/-- The parts add up: the part that fills the last empty slot brings the received bytes to the
advertised size. -/
def AddsUp (rx : IncomingResourceAsm) (idx : ℕ) (data : Bytes) : Prop :=
  (∀ i < rx.totalParts, i ≠ idx → rx.partSlots i ≠ none) →
    (rx.filledBytes + data.length : ℤ) = rx.adv.transferSize

lemma Sound.not_complete (h : Sound rx) : rx.incomingTransferComplete = false := by
  obtain ⟨i, hi, hnone⟩ := h.missing
  rw [Bool.eq_false_iff, ne_eq, incomingTransferComplete_iff]
  exact fun hall => hall.1 i hi hnone

/-- **A part, once it has a slot**, completes the transfer, or leaves it sound, and busy or with a
request to queue. -/
lemma Sound.afterPart (h : Sound rx) {idx : ℕ} (hdata : data ≠ [])
    (hlt : idx < rx.totalParts) (hnone : rx.partSlots idx = none)
    (hflight : rx.outstandingParts = 0 ∨ idx ∈ rx.inflight) (hadds : rx.AddsUp idx data) :
    (∃ inner, (rx.storePart idx data).afterPart = .complete inner) ∨ ∃ rx' prefetchHMU needRefill,
        (rx.storePart idx data).afterPart = .stored rx' prefetchHMU needRefill ∧ Sound rx' ∧
          (Busy rx' ∨ needRefill) := by
  set rx₁ := rx.storePart idx data with hrx
  by_cases hcomplete : rx₁.incomingTransferComplete
  · exact .inl ⟨_, if_pos hcomplete⟩
  have hmissing : ∃ i < rx.totalParts, rx₁.partSlots i = none := by
    by_contra hall
    push Not at hall
    apply hcomplete
    rw [incomingTransferComplete_iff, filledBytes_storePart hlt hnone]
    refine ⟨hall, ?_⟩
    refine hadds fun i hi hne hslot => hall i hi ?_
    simp [hrx, IncomingResourceAsm.storePart, Function.update_of_ne hne, hslot]
  have hsound : Sound rx₁ := h.storePart hdata hflight hmissing
  refine .inr ⟨_, _, _, if_neg hcomplete, ?_, ?_⟩
  · split_ifs
    · exact hsound.growIncomingResourceWindow
    · exact hsound
  · -- without a refill, parts are outstanding
    by_cases hrefill : rx₁.needRefill
    · exact .inr hrefill
    · refine .inl (.inr ?_)
      rw [if_neg fun hgrow => hrefill hgrow.1]
      rw [needRefill, decide_eq_true_eq] at hrefill
      omega

lemma mapHashesOf_ne_nil {b : Bytes} (hne : b.length ≠ 0) (hmod : b.length % mapHashLen = 0) :
    mapHashesOf b ≠ [] := by
  simp only [mapHashesOf, ne_eq, map_eq_nil_iff, range_eq_nil, mapHashLen] at hmod ⊢
  omega

lemma Sound.new {adv : ResourceAdvertisement} (segLen last : ℕ) (hparts : 0 < adv.parts)
    (hne : adv.hashmap.length ≠ 0) (hmod : adv.hashmap.length % mapHashLen = 0) :
    Sound (new adv segLen last) := by
  have hblank : KnownPrefix (blank adv segLen) := by
    constructor <;> simp [blank]
  have htotal : 0 < (blank adv segLen).totalParts := by
    simp only [blank]
    omega
  obtain ⟨hknown, -, hpos⟩ := KnownPrefix.setMapHashes 0 hblank (Nat.zero_le _)
    (fun mh hmh => length_of_mem_mapHashesOf hmh)
  have hheight := hpos (mapHashesOf_ne_nil hne hmod) htotal
  rw [IncomingResourceAsm.new, applyHashmapSegment_zero]
  obtain ⟨height, hashes, index, hframe⟩ := setMapHashes_frame (mapHashesOf adv.hashmap)
    (blank adv segLen) 0
  rw [hframe] at hknown hheight ⊢
  exact {
    known := hknown.known
    length_hash := hknown.length_hash
    height_le := hknown.height_le
    height_pos := hheight
    slot_ne := by simp [blank]
    prefix_eq := by
      have hzero : (range (blank adv segLen).totalParts).findIdx
          (fun i => ((none : Option Bytes).getD []).length = 0) = 0 := by
        obtain ⟨n, hn⟩ := Nat.exists_eq_succ_of_ne_zero htotal.ne'
        rw [hn, range_succ_eq_map, findIdx_cons]
        simp
      show -1 = consecutivePrefix (fun _ => none) (blank adv segLen).totalParts
      rw [consecutivePrefix, hzero]
      rfl
    outstanding_eq := rfl
    missing := ⟨0, htotal, rfl⟩ }

end IncomingResourceAsm

namespace IncomingLink

variable {sha : Sha256} {l : IncomingLink}

/-! ## The link -/

/-- The event keeps the books of the transfer in order.
* A part goes into a slot that is in flight, unless nothing is; and the parts add up.
* A hashmap update starts within the known map hashes, or where they end.
* A request that a handler has queued is sent. -/
def Orderly (sha : Sha256) (l : IncomingLink) : IncomingEvent → Prop
  | .part data => ∀ generation rx idx, l.incomingRx = some (generation, rx) →
      rx.findSlot (sha.mapHash rx.adv.randomHash data) = some idx →
      (rx.outstandingParts = 0 ∨ idx ∈ rx.inflight) ∧ rx.AddsUp idx data
  | .hashmapUpdate resHash segment _ => ∀ generation rx, l.incomingRx = some (generation, rx) →
      resHash = rx.adv.hash → rx.waitingForHmu = true →
      segment * rx.segLen ≤ rx.hashmapHeight
  | .run i sent =>
    (∀ generation idx exhausted,
      l.tasks[i]? = some (.reqSending false generation idx exhausted) → sent = true) ∧
    ∀ generation, l.tasks[i]? = some (.prefetchSending generation) → sent = true
  | _ => True

/-- **No zombie**: when no goroutine is at work, a transfer that is not complete has a request under
way, so that the watchdog, once the grace period is over, repeats it or gives the transfer up. -/
def NoZombie (l : IncomingLink) : Prop :=
  ∀ generation rx, l.tasks = [] → l.incomingRx = some (generation, rx) →
    rx.incomingTransferComplete = false →
    Busy rx ∧ ∃ task ∈ [.reqNext true, .reset],
      (l.tickIncomingResourceWatchdog generation true).tasks = [task]

def Driven (l : IncomingLink) (rx : IncomingResourceAsm) : Prop :=
  Busy rx ∨ ∃ watchdog, .reqNext watchdog ∈ l.tasks

/-- The transfer, if there is one, is sound and driven; or the link is about to be reset. -/
def Inv (l : IncomingLink) : Prop :=
  .reset ∈ l.tasks ∨ ∀ generation rx, l.incomingRx = some (generation, rx) → Sound rx ∧ l.Driven rx

lemma tick_of_busy {generation : ℕ} {rx : IncomingResourceAsm}
    (hrx : l.incomingRx = some (generation, rx)) (hbusy : Busy rx) :
    ∃ task ∈ [.reqNext true, .reset],
      (l.tickIncomingResourceWatchdog generation true).tasks = l.tasks ++ [task] := by
  have hseen : ¬ (rx.outstandingParts = 0 ∧ (!rx.waitingForHmu)) := by
    rintro ⟨hout, hwait⟩
    rcases hbusy with hw | ho
    · simp [hw] at hwait
    · omega
  simp only [tickIncomingResourceWatchdog, hrx]
  rw [if_neg (by simp)]
  split_ifs
  · exact ⟨.reset, by simp, rfl⟩
  · exact ⟨.reqNext true, by simp, rfl⟩

lemma Inv.noZombie (h : Inv l) : NoZombie l := by
  intro generation rx htasks hrx hincomplete
  rw [Inv, htasks] at h
  rcases h with h | h
  · simp at h
  · obtain ⟨-, hbusy | ⟨watchdog, hmem⟩⟩ := h generation rx hrx
    · obtain ⟨task, hmem, htick⟩ := tick_of_busy hrx hbusy
      exact ⟨hbusy, task, hmem, by rw [htick, htasks, nil_append]⟩
    · simp [htasks] at hmem

lemma Inv.of_none (hrx : l.incomingRx = none) : Inv l := by
  right
  intro generation rx hsome
  rw [hrx] at hsome
  cases hsome

lemma Inv.of_some {generation : ℕ} {rx : IncomingResourceAsm}
    (hrx : l.incomingRx = some (generation, rx)) (hsound : Sound rx) (hdriven : l.Driven rx) :
    Inv l := by
  right
  intro generation' rx' hsome
  rw [hrx] at hsome
  obtain ⟨-, rfl⟩ := Prod.mk.inj (some.inj hsome)
  exact ⟨hsound, hdriven⟩

lemma Inv.init (mtu mdu : ℤ) : Inv (new mtu mdu) := of_none rfl

/-! ## A pending reset -/

lemma Inv.of_reset (h : .reset ∈ l.tasks) (e : IncomingEvent) : Inv (l.step sha e) := by
  obtain ⟨more, htasks, -⟩ := (frame_step sha l e).tasks
  by_cases hreset : ∃ i sent, e = .run i sent ∧ l.tasks[i]? = some .reset
  · obtain ⟨i, sent, rfl, htask⟩ := hreset
    simp only [step, htask]
    exact of_none rfl
  · refine .inl (htasks ▸ mem_append_left _ ?_)
    cases e with
    | run i sent =>
      obtain ⟨j, hj⟩ := mem_iff_getElem?.1 h
      refine mem_eraseIdx_iff_getElem?.2 ⟨j, ?_, hj⟩
      rintro rfl
      exact hreset ⟨_, sent, rfl, hj⟩
    | _ => exact h

/-! ## A sound and driven transfer -/

section Steps

lemma Inv.advertisement (l : IncomingLink) (adv : ResourceAdvertisement) (admitted : Bool) :
    Inv (l.step sha (.advertisement adv admitted)) := by
  rw [step]
  cases hbegin : l.beginIncomingResource adv admitted with
  | error err => exact .inl (mem_append_right _ (mem_singleton_self _))
  | ok l' =>
    obtain ⟨hparts, hne, hmod, rfl⟩ := beginIncomingResource_ok hbegin
    exact of_some rfl (.new _ _ hparts hne hmod)
      (.inr ⟨false, mem_append_right _ (mem_singleton_self _)⟩)

variable (h : ∀ generation rx, l.incomingRx = some (generation, rx) → Sound rx ∧ l.Driven rx)

include h

lemma Inv.part (he : Orderly sha l (.part data)) : Inv (l.step sha (.part data)) := by
  rw [step, handleResourcePart]
  cases hrx : l.incomingRx with
  | none => exact of_none hrx
  | some current =>
    obtain ⟨generation, rx⟩ := current
    obtain ⟨hsound, hdriven⟩ := h generation rx hrx
    simp only
    rcases rx.appendIncomingResourcePart_cases sha data with
      (heq | ⟨err, heq⟩) | ⟨hcomplete, heq⟩ | ⟨idx, hdata, hslot, heq⟩
    · rw [heq]
      exact .inr h
    · rw [heq]
      exact .inr h
    · rw [hsound.not_complete] at hcomplete
      cases hcomplete
    · obtain ⟨hlt, hnone, -⟩ := findSlot_spec hslot
      obtain ⟨hflight, hadds⟩ := he generation rx idx hrx hslot
      rw [heq]
      rcases hsound.afterPart hdata hlt hnone hflight hadds with
        ⟨inner, hafter⟩ | ⟨rx', prefetchHMU, needRefill, hafter, hsound', hbusy⟩
      · rw [hafter]
        exact of_none rfl
      · rw [hafter]
        refine of_some rfl hsound' (hbusy.imp_right ?_)
        intro hrefill
        exact ⟨false, by simp [hrefill]⟩

lemma Inv.hashmapUpdate {resHash hashmapBytes : Bytes}
    (he : Orderly sha l (.hashmapUpdate resHash segment hashmapBytes)) :
    Inv (l.step sha (.hashmapUpdate resHash segment hashmapBytes)) := by
  rw [step, applyIncomingHashmapUpdate]
  cases hrx : l.incomingRx with
  | none => exact of_none hrx
  | some current =>
    obtain ⟨generation, rx⟩ := current
    simp only
    split_ifs with hignored hempty
    · exact .inr h
    · exact .inl (mem_append_right _ (mem_singleton_self _))
    · simp only [Bool.not_eq_true', not_or, not_not, Bool.not_eq_false] at hignored
      have hseg := he generation rx hrx hignored.1 hignored.2
      exact of_some rfl ((h generation rx hrx).1.applyHashmapSegment hashmapBytes hseg)
        (.inr ⟨false, mem_append_right _ (mem_singleton_self _)⟩)

lemma Inv.tick (watched : ℕ) (graceElapsed : Bool) :
    Inv (l.step sha (.tick watched graceElapsed)) := by
  rw [step, tickIncomingResourceWatchdog]
  cases hrx : l.incomingRx with
  | none => exact of_none hrx
  | some current =>
    obtain ⟨generation, rx⟩ := current
    simp only
    split_ifs with _ _ habort
    · exact .inr h
    · exact .inr h
    · exact .inl (mem_append_right _ (mem_singleton_self _))
    · exact of_some rfl (h generation rx hrx).1.stall
        (.inr ⟨true, mem_append_right _ (mem_singleton_self _)⟩)

lemma Inv.eraseIdx {i : ℕ} {task : IncomingTask} (htask : l.tasks[i]? = some task)
    (hne : ∀ watchdog, task ≠ .reqNext watchdog) : Inv { l with tasks := l.tasks.eraseIdx i } := by
  refine .inr fun generation rx hrx => ⟨(h generation rx hrx).1, ?_⟩
  refine (h generation rx hrx).2.imp_right fun ⟨watchdog, hmem⟩ => ⟨watchdog, ?_⟩
  obtain ⟨j, hj⟩ := mem_iff_getElem?.1 hmem
  refine mem_eraseIdx_iff_getElem?.2 ⟨j, ?_, hj⟩
  rintro rfl
  rw [htask] at hj
  exact hne watchdog (some.inj hj)

lemma Inv.run {i : ℕ} {sent : Bool} (he : Orderly sha l (.run i sent)) :
    Inv (l.step sha (.run i sent)) := by
  obtain ⟨hreq, hprefetch⟩ := he
  rw [step]
  cases htask : l.tasks[i]? with
  | none => exact .inr h
  | some task =>
    simp only
    cases task with
    | reqNext watchdog =>
      rw [runTask]
      cases hrx : l.incomingRx with
      | none => exact of_none rfl
      | some current =>
        obtain ⟨generation, rx⟩ := current
        simp only
        rcases (h generation rx hrx).1.sendIncomingResourceReqNext with
          ⟨hreq, hbusy⟩ | ⟨req, hreq, hsound, hbusy⟩
        · rw [hreq]
          exact of_some rfl (h generation rx hrx).1 (.inl hbusy)
        · rw [hreq]
          exact of_some rfl hsound (.inl hbusy)
    | reqSending watchdog generation idx exhausted =>
      rw [runTask]
      split_ifs with hsent
      · exact eraseIdx h htask fun _ heq => by cases heq
      · cases watchdog with
        | false => exact absurd (hreq generation idx exhausted htask) hsent
        | true => exact .inl (mem_append_right _ (mem_singleton_self _))
    | prefetch =>
      have hsame := eraseIdx h htask fun _ heq => by cases heq
      rw [runTask]
      cases hrx : l.incomingRx with
      | none => exact of_none rfl
      | some current =>
        obtain ⟨generation, rx⟩ := current
        simp only
        rcases (h generation rx hrx).1.sendIncomingResourceHMUPrefetch with
          hreq | ⟨req, hreq, hsound, hbusy⟩
        · rw [hreq]
          exact hrx ▸ hsame
        · rw [hreq]
          exact of_some rfl hsound (.inl hbusy)
    | prefetchSending generation =>
      rw [runTask, if_pos (hprefetch generation htask)]
      exact eraseIdx h htask fun _ heq => by cases heq
    | reset => exact of_none rfl

end Steps

/-- **Every orderly event keeps the invariant.** -/
lemma Inv.step (h : Inv l) {e : IncomingEvent} (he : Orderly sha l e) : Inv (l.step sha e) := by
  rcases h with hreset | h
  · exact of_reset hreset e
  · cases e with
    | advertisement adv admitted => exact advertisement l adv admitted
    | part data => exact part h he
    | hashmapUpdate resHash segment hashmapBytes => exact hashmapUpdate h he
    | reset => exact of_none rfl
    | tick watched graceElapsed => exact tick h watched graceElapsed
    | run i sent => exact run h he

/-- **Incoming transfers do not become zombies in orderly runs.**  In every run whose events are all
orderly, whatever their order and however the goroutines interleave, every state has the
property. -/
theorem noZombie_of_orderly (sha : Sha256) (mtu mdu : ℤ) (events : List IncomingEvent)
    (h : Run.Along (step sha) (Orderly sha) (new mtu mdu) events) :
    Run.Always (step sha) NoZombie (new mtu mdu) events :=
  (Run.always_of_along (I := Inv) (fun _ _ hl he => hl.step he) (.init mtu mdu) h).mono
    fun _ hl => hl.noZombie

def onePart : ResourceAdvertisement := .plain 8 1 [0, 0, 0, 0] [0, 0, 0, 0]

def promptRun : List IncomingEvent :=
  [.advertisement onePart true, .run 0 true, .run 0 true, .part (replicate 8 0)]

def partFits (sha : Sha256) (l : IncomingLink) (data : Bytes) : Bool :=
  match l.incomingRx with
  | none => true
  | some (_, rx) =>
    match rx.findSlot (sha.mapHash rx.adv.randomHash data) with
    | none => true
    | some idx => decide (idx ∈ rx.inflight ∧
        (rx.filledBytes + data.length : ℤ) = rx.adv.transferSize)

lemma orderly_of_partFits (h : partFits sha l data) : Orderly sha l (.part data) := by
  intro generation rx idx hrx hslot
  rw [partFits, hrx] at h
  simp only [hslot, decide_eq_true_eq] at h
  exact ⟨.inr h.1, fun _ => h.2⟩

theorem noZombie_promptRun : Run.Always (step Sha256.padded) NoZombie (new 500 431) promptRun := by
  refine noZombie_of_orderly .padded 500 431 promptRun ?_
  refine ⟨trivial, ⟨fun _ _ _ _ => rfl, fun _ _ => rfl⟩, ⟨fun _ _ _ _ => rfl, fun _ _ => rfl⟩,
    orderly_of_partFits ?_, trivial⟩
  decide +kernel

/-! ## A request that cannot be sent -/

def unsentRun : List IncomingEvent := [.advertisement onePart true, .run 0 true, .run 0 false]

def zombie (l : IncomingLink) : Bool :=
  match l.incomingRx with
  | none => false
  | some (_, rx) => l.tasks.isEmpty && !rx.incomingTransferComplete && !rx.waitingForHmu &&
      rx.outstandingParts == 0

lemma not_noZombie_of_zombie (h : l.zombie) : ¬ NoZombie l := by
  intro hno
  rw [zombie] at h
  cases hrx : l.incomingRx with
  | none => simp [hrx] at h
  | some current =>
    obtain ⟨generation, rx⟩ := current
    simp only [hrx, Bool.and_eq_true, Bool.not_eq_true', List.isEmpty_iff, beq_iff_eq] at h
    obtain ⟨⟨⟨htasks, hincomplete⟩, hwait⟩, hout⟩ := h
    obtain ⟨hw | ho, -⟩ := hno generation rx htasks hrx hincomplete
    · rw [hwait] at hw
      cases hw
    · omega

/-- **A failed request makes a zombie**: once the first request of a transfer cannot be sent, the
transfer is neither repeated nor given up. -/
theorem unsentRun_zombie : ¬ Run.Always (step Sha256.padded) NoZombie (new 500 431) unsentRun := by
  intro h
  have hzombie : (Run.exec (step .padded) (new 500 431) unsentRun).zombie = true := by
    decide +kernel
  exact not_noZombie_of_zombie hzombie h.last

end IncomingLink

end Reticulum

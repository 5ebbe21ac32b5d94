import Reticulum.Link.HashmapSync
import Reticulum.Link.Proof

/-!
# Requests for more of the hashmap

A receiver that runs out of map hashes names the last one it has, the **anchor**, and the sender
looks for it to find the segment that comes next (`chooseHashmapUpdateSegment` in
`pkg/link/link_resource.go`).  The search is confined to a window around `receiverMinPart`, which
moves when an update is *sent*, and for requests that were late.

`HashmapExchange` is the two ends with the network between them.  `receiverMinPart` never drifts
more than one segment (`Paced`), so the anchor is always in the window
(**`exhausted_request_answerable`**).
-/

namespace Reticulum

open Resource.Constants List

/-! ## The search for the anchor -/

lemma PendingLink.entries_le_guard (l : PendingLink) :
    hashmapEntriesPerSegment l.updateMDU.mdu ≤ collisionGuardSize := by
  have hmdu : l.updateMDU.mdu ≤ 431 := by
    have hmtu : ((min l.mtu Packet.Constants.mtu : ℕ) : ℤ) ≤ 500 :=
      Int.ofNat_le.2 (min_le_right _ _)
    have hblocks : (min l.mtu Packet.Constants.mtu - (headerMinSize + ifacMinSize +
        tokenOverhead) : ℤ).tdiv aesBlockSize ≤ 27 :=
      (Int.tdiv_le_tdiv (by decide) (sub_le_sub_right hmtu _)).trans (by decide)
    simp only [updateMDU, ifacMinSize, tokenOverhead, aesBlockSize, defaultMTU,
      ← sub_sub] at hblocks ⊢
    split_ifs <;> omega
  have hmono : ∀ mdu : ℤ, mdu ≤ 431 → (mdu - overhead).tdiv mapHashLen ≤ 74 := by
    intro mdu hle
    exact (Int.tdiv_le_tdiv (by decide) (sub_le_sub_right hle overhead)).trans (by decide)
  have hwidth := hmono _ hmdu
  have hdefault := hmono defaultLinkMDU le_rfl
  simp only [hashmapEntriesPerSegment, collisionGuardSize, hashmapMaxLen]
  split_ifs <;> omega

namespace Resource

def Distinct (r : Resource) : Prop :=
  ∀ i < r.partCount, ∀ j < r.partCount, r.mapHashAt i = r.mapHashAt j → i = j

instance decidableDistinct (r : Resource) : Decidable r.Distinct := by
  unfold Distinct
  infer_instance

variable {r : Resource} {linkMDU : ℤ}

lemma mapHashAt_of_le (hr : r.Mapped) {i : ℕ} (hi : r.partCount ≤ i) : r.mapHashAt i = none := by
  have hle : r.partCount * mapHashLen ≤ i * mapHashLen := Nat.mul_le_mul_right _ hi
  have hpos : 0 < mapHashLen := by decide
  rw [mapHashAt, hr, if_pos (by omega)]

lemma mapHashAt_eq_entry_iff (hr : r.Mapped) (hdistinct : r.Distinct) {i t : ℕ}
    (ht : t < r.partCount) : r.mapHashAt i = some (r.entry t) ↔ i = t := by
  constructor
  · intro h
    rcases lt_or_ge i r.partCount with hi | hi
    · exact hdistinct i hi t ht (h.trans (mapHashAt_of_lt hr ht).symm)
    · rw [mapHashAt_of_le hr hi] at h
      cases h
  · rintro rfl
    exact mapHashAt_of_lt hr ht

lemma filter_range'_eq (start n t : ℕ) :
    (range' start n).filter (fun i => decide (i = t)) =
      if start ≤ t ∧ t < start + n then [t] else [] := by
  rw [filter_eq]
  split_ifs with h
  · rw [count_eq_one_of_mem (nodup_range' 1) (mem_range'_1.2 h)]
    rfl
  · rw [count_eq_zero_of_not_mem (by rw [mem_range'_1]; exact h)]
    rfl

/-- **Where an anchor is found.**  The sender has sent segment `m` last and is asked for segment
`j`, at most one further: it finds the anchor if the request is not an old one. -/
lemma chooseHashmapUpdateSegment_entry (hr : r.Mapped) (hdistinct : r.Distinct)
    (hguard : hashmapEntriesPerSegment linkMDU ≤ collisionGuardSize) {j m : ℕ} (hj : 0 < j)
    (hjm : j ≤ m + 1) (hjN : j * hashmapEntriesPerSegment linkMDU < r.partCount)
    (hmN : m * hashmapEntriesPerSegment linkMDU < r.partCount) :
    r.chooseHashmapUpdateSegment linkMDU (r.entry (j * hashmapEntriesPerSegment linkMDU - 1))
        (m * hashmapEntriesPerSegment linkMDU) =
      if m ≤ j then some (j, j * hashmapEntriesPerSegment linkMDU) else none := by
  have hpos := hashmapEntriesPerSegment_pos linkMDU
  unfold chooseHashmapUpdateSegment
  generalize hashmapEntriesPerSegment linkMDU = E at *
  have hE : E ≤ j * E := Nat.le_mul_of_pos_left E hj
  have hlast : j * E - 1 < r.partCount := by omega
  have hcount : r.segments.toNat = r.partCount := rfl
  rw [hcount, if_neg (by rw [length_entry hr hlast]; omega)]
  simp only [mapHashAt_eq_entry_iff hr hdistinct hlast, filter_range'_eq]
  -- the window: one segment back, and as far as the collision guard reaches
  have hstart : (if r.partCount ≤ m * E - E then 0 else m * E - E) = m * E - E :=
    if_neg (by omega)
  have hend : (if min (m * E + collisionGuardSize) r.partCount < m * E - E + E then
      min (m * E - E + collisionGuardSize) r.partCount
      else min (m * E + collisionGuardSize) r.partCount) =
        min (m * E + collisionGuardSize) r.partCount := by
    rcases Nat.eq_zero_or_pos m with rfl | hm
    · simp
    · exact if_neg (by omega)
  rw [hstart, hend]
  have hstep : j * E ≤ m * E + E := by
    rw [← Nat.succ_mul]
    exact Nat.mul_le_mul_right E hjm
  have hin : m * E - E ≤ j * E - 1 ∧
      j * E - 1 < m * E - E + (min (m * E + collisionGuardSize) r.partCount - (m * E - E)) ↔
      m ≤ j := by
    constructor
    · rintro ⟨hle, -⟩
      by_contra hmj
      have hback : j * E + E ≤ m * E := by
        rw [← Nat.succ_mul]
        exact Nat.mul_le_mul_right E (Nat.lt_of_not_le hmj)
      omega
    · intro hmj
      have hle : m * E ≤ j * E := Nat.mul_le_mul_right E hmj
      omega
  by_cases hmj : m ≤ j
  · have hat : j * E - 1 + 1 = j * E := by omega
    rw [if_pos (hin.2 hmj), if_pos hmj]
    simp [hat, hjN, Nat.mul_div_cancel j hpos, hj.ne']
  · rw [if_neg fun h => hmj (hin.1 h), if_neg hmj]
    rfl

end Resource

/-! ## The two ends -/

def IncomingResourceAsm.keepHashmap (rx moved : IncomingResourceAsm) : IncomingResourceAsm :=
  { moved with
    adv := rx.adv
    hashmapSegLen := rx.hashmapSegLen
    mapHashes := rx.mapHashes
    hashIndex := rx.hashIndex
    hashmapHeight := rx.hashmapHeight
    totalParts := rx.totalParts }

/-- The receiver, the sender's `receiverMinPart`, and the requests and updates that were sent. -/
structure HashmapExchange where
  rx : IncomingResourceAsm
  receiverMinPart : ℕ
  requests : List Bytes
  updates : List ℕ

namespace HashmapExchange

open IncomingResourceAsm

def init (r : Resource) (linkMDU : ℤ) (last : ℕ) : HashmapExchange where
  rx := start r linkMDU last
  receiverMinPart := 0
  requests := []
  updates := []

def request (x : HashmapExchange) (ahead : Bool) : HashmapExchange :=
  match if ahead then x.rx.sendIncomingResourceHMUPrefetch
    else x.rx.sendIncomingResourceReqNext with
  | .ok (some req) => { x with rx := req.asm, requests := x.requests ++ [req.body] }
  | _ => x

def chosen (r : Resource) (linkMDU : ℤ) (receiverMinPart : ℕ) (plaintext : Bytes) :
    Option (ℕ × ℕ) :=
  match OutgoingLink.parseResourceRequest plaintext with
  | some (some anchorHash, resourceHash, reqHashes) =>
    if resourceHash ≠ r.hash ∨ reqHashes.length % mapHashLen ≠ 0 then none
    else
      match r.chooseHashmapUpdateSegment linkMDU anchorHash receiverMinPart with
      | none => none
      | some (segment, nextMin) =>
        if r.hashmapSegment linkMDU segment = [] then none else some (segment, nextMin)
  | _ => none

def answer (r : Resource) (linkMDU : ℤ) (x : HashmapExchange) (i : ℕ) (sent : Bool) :
    HashmapExchange :=
  match x.requests[i]?.bind (chosen r linkMDU x.receiverMinPart), sent with
  | some (segment, nextMin), true =>
    { x with receiverMinPart := nextMin, updates := x.updates ++ [segment] }
  | _, _ => x

/-- Update number `i` arrives; it is ignored unless one is waited for. -/
def update (r : Resource) (linkMDU : ℤ) (x : HashmapExchange) (i : ℕ) : HashmapExchange :=
  match x.updates[i]? with
  | some segment =>
    if x.rx.waitingForHmu then
      { x with rx := { x.rx.applySegment r linkMDU segment with waitingForHmu := false } }
    else x
  | none => x

/-- What can happen.  `moved` is all that befalls a transfer besides: parts arrive, requests cannot
be sent, the watchdog gives requests up. -/
inductive Event where
  | request (ahead : Bool)
  | answer (i : ℕ) (sent : Bool)
  | update (i : ℕ)
  | moved (rx : IncomingResourceAsm)

def step (r : Resource) (linkMDU : ℤ) (x : HashmapExchange) : Event → HashmapExchange
  | .request ahead => x.request ahead
  | .answer i sent => x.answer r linkMDU i sent
  | .update i => x.update r linkMDU i
  | .moved rx => { x with rx := x.rx.keepHashmap rx }

lemma length_of_parseResourceRequest {plaintext anchorHash resourceHash reqHashes : Bytes}
    (h : OutgoingLink.parseResourceRequest plaintext =
      some (some anchorHash, resourceHash, reqHashes)) : 1 + Sha256.size ≤ plaintext.length := by
  unfold OutgoingLink.parseResourceRequest at h
  split at h
  · cases h
  · split_ifs at h
    · rw [length_cons]
      omega
    · cases h

/-- The sender of an exchange is that of a link: a request for which a segment is chosen takes the
packet handler four steps, and they end with the `receiverMinPart` of the exchange. -/
theorem answer_refines {sha : Sha256} {l : OutgoingLink} {out : ℕ} {a : OutgoingAnswer}
    {plaintext : Bytes} {segment nextMin : ℕ} (hidle : l.handler = .idle)
    (hopen : l.status ≠ .closed) (hout : l.outgoingRes = some out) (hallowed : a.allowed)
    (hparts : a.partsSent)
    (hchosen : chosen (l.heap out) l.mdu l.outgoingReceiverMinPart plaintext =
      some (segment, nextMin)) : Run.exec (.step sha) l
        [.packet (.request plaintext), .handlerStep a, .handlerStep a, .handlerStep a] =
      { l with outgoingReceiverMinPart :=
          if a.sent.isNone then nextMin else l.outgoingReceiverMinPart } := by
  rw [chosen] at hchosen
  split at hchosen
  · rename_i anchor resourceHash reqHashes hparse
    have hlen := length_of_parseResourceRequest hparse
    split_ifs at hchosen with hother
    split at hchosen
    · cases hchosen
    rename_i segment' nextMin' hchoose
    split_ifs at hchosen with hempty
    obtain ⟨rfl, rfl⟩ := Prod.mk.inj (Option.some.inj hchosen)
    have hread : l.receive (.request plaintext) =
        { l with handler := .requestRead plaintext } := by
      simp [OutgoingLink.receive, hidle, hopen, hout, hlen]
    have hdispatch : .handlerStep sha { l with handler := .requestRead plaintext } a =
        { l with handler := .requestFor out l.outgoingReceiverMinPart (some anchor) } := by
      simp [OutgoingLink.handlerStep, OutgoingLink.dispatchOutgoingResourceRequests, hallowed, hout,
        hparse, hother]
    simp only [Run.exec_cons, OutgoingLink.step, hread, hdispatch]
    cases hsent : a.sent with
    | none =>
      simp [OutgoingLink.handlerStep, OutgoingLink.sendResourceHashmapUpdate, hparts, hchoose,
        hempty, hsent, hout, hidle]
    | some err =>
      simp [OutgoingLink.handlerStep, OutgoingLink.sendResourceHashmapUpdate, hparts, hchoose,
        hempty, hsent, hidle]
  · cases hchosen

/-! ## How far the two ends drift apart -/

def Anchored (r : Resource) (linkMDU : ℤ) (k : ℕ) (body : Bytes) : Prop :=
  ∀ anchor resourceHash reqHashes,
    OutgoingLink.parseResourceRequest body = some (some anchor, resourceHash, reqHashes) →
      ∃ j, 0 < j ∧ j ≤ k ∧ j * hashmapEntriesPerSegment linkMDU < r.partCount ∧
        anchor = r.entry (j * hashmapEntriesPerSegment linkMDU - 1)

/-- **The pace of an exchange**: the receiver knows the first `k` segments, and the update that was
sent last is segment `m`, which is the next one or the one before. -/
structure Paced (r : Resource) (linkMDU : ℤ) (x : HashmapExchange) (k m : ℕ) : Prop
    extends Receives r linkMDU x.rx where
  pos : 0 < k
  known_eq : x.rx.known = .range (min (k * hashmapEntriesPerSegment linkMDU) r.partCount)
  min_eq : x.receiverMinPart = m * hashmapEntriesPerSegment linkMDU
  min_lt : m * hashmapEntriesPerSegment linkMDU < r.partCount
  le : m ≤ k
  le_succ : k ≤ m + 1
  anchored : ∀ body ∈ x.requests, Anchored r linkMDU k body
  update_le : ∀ s ∈ x.updates, s ≤ m

variable {r : Resource} {linkMDU : ℤ} {x : HashmapExchange} {k m : ℕ}

lemma Anchored.mono {body : Bytes} (h : Anchored r linkMDU k body) {k' : ℕ} (hle : k ≤ k') :
    Anchored r linkMDU k' body := by
  intro anchor resourceHash reqHashes hparse
  obtain ⟨j, hpos, hj, hrest⟩ := h anchor resourceHash reqHashes hparse
  exact ⟨j, hpos, hj.trans hle, hrest⟩

lemma paced_init (hr : r.Mapped) (hpos : 0 < r.partCount) (linkMDU : ℤ) (last : ℕ) :
    Paced r linkMDU (init r linkMDU last) 1 0 := by
  obtain ⟨hstart, hknown⟩ := receives_start hr linkMDU last
  refine ⟨hstart, one_pos, ?_, ?_, ?_, ?_, ?_, ?_, ?_⟩
  · refine known_eq_range_of_segments (hashmapEntriesPerSegment_pos linkMDU) fun i => ?_
    rw [Nat.lt_one_iff]
    exact hknown i
  all_goals simp [init, hpos]

section

variable (h : Paced r linkMDU x k m)
include h

lemma Paced.of_hashmap {rx : IncomingResourceAsm} (hhashes : rx.mapHashes = x.rx.mapHashes)
    (hheight : rx.hashmapHeight = x.rx.hashmapHeight) (htotal : rx.totalParts = x.rx.totalParts)
    (hseg : rx.hashmapSegLen = x.rx.hashmapSegLen) : Paced r linkMDU { x with rx } k m := by
  have hknown : rx.known = x.rx.known := by rw [known, known, hhashes, htotal]
  refine ⟨⟨⟨?_, ?_⟩, ?_, ?_⟩, h.pos, ?_, h.min_eq, h.min_lt, h.le, h.le_succ, h.anchored,
    h.update_le⟩
  · intro i mh hmh
    simp only [hhashes, htotal] at hmh ⊢
    exact h.hash_ok i mh hmh
  · simp only [hheight, hknown]
    exact h.height_eq
  · exact htotal.trans h.total
  · have hlen : rx.segLen = x.rx.segLen := by rw [segLen, segLen, hseg]
    exact hlen.trans h.segLen_eq
  · exact hknown.trans h.known_eq

lemma Paced.height_eq_mul (hless : x.rx.hashmapHeight < r.partCount) :
    x.rx.hashmapHeight = k * hashmapEntriesPerSegment linkMDU := by
  obtain ⟨hheight, -⟩ := h.known_eq_range h.known_eq
  omega

variable (hr : r.Mapped)
include hr

/-- **What an honest receiver sends** names the end of what it knows. -/
lemma Paced.anchored_of_sends {req : Request} (hreq : x.rx.Sends req) :
    Anchored r linkMDU k req.body := by
  obtain ⟨hheight, hfront⟩ := h.known_eq_range h.known_eq
  obtain ⟨-, rest, hbody⟩ | ⟨-, hpos, hask, rest, hbody⟩ := hreq.body
  · intro anchor resourceHash reqHashes hparse
    rw [hbody, OutgoingLink.parseResourceRequest, if_neg (by decide)] at hparse
    split_ifs at hparse
    cases hparse
  · have hless : x.rx.hashmapHeight < r.partCount := by
      rcases hask with hless | ⟨pn, hpn, hnone⟩
      · exact h.total ▸ hless
      · by_contra hall
        have hsome := (hfront pn).2 (by rw [← h.total] at hall; omega)
        rw [hnone] at hsome
        cases hsome
    have heq := h.height_eq_mul hless
    have hlast : x.rx.mapHashes (x.rx.hashmapHeight - 1) =
        some (r.entry (x.rx.hashmapHeight - 1)) :=
      h.toSynced.eq_entry (h.toSynced.isSome_iff.1 ((hfront _).2 (by omega)))
    have hlen := Resource.length_entry hr (i := x.rx.hashmapHeight - 1) (by omega)
    rw [hlast, Option.getD_some] at hbody
    intro anchor resourceHash reqHashes hparse
    rw [hbody, cons_append, OutgoingLink.parseResourceRequest, if_pos (by decide)] at hparse
    split_ifs at hparse
    simp only [Option.some.injEq, Prod.mk.injEq] at hparse
    refine ⟨k, h.pos, le_rfl, by omega, ?_⟩
    rw [← hparse.1, ← hlen, take_left, heq]

/-! ## Every step keeps the pace -/

lemma Paced.request (ahead : Bool) : Paced r linkMDU (x.request ahead) k m := by
  rw [HashmapExchange.request]
  split
  · rename_i req hreq
    have hsends : x.rx.Sends req := by
      cases ahead
      · exact .inl hreq
      · exact .inr hreq
    have hasm : ∃ idx exhausted, req.asm = x.rx.issue idx exhausted := by
      rcases hsends with hsend | hsend
      · exact ⟨_, _, (sendIncomingResourceReqNext_spec hsend).2⟩
      · exact ⟨_, _, sendIncomingResourceHMUPrefetch_asm hsend⟩
    obtain ⟨idx, exhausted, hasm⟩ := hasm
    have hnext : Paced r linkMDU { x with rx := req.asm } k m := by
      rw [hasm]
      exact h.of_hashmap rfl rfl rfl rfl
    refine { hnext with anchored := ?_ }
    intro body hbody
    rcases mem_append.1 hbody with hold | hnew
    · exact h.anchored body hold
    · rw [mem_singleton.1 hnew]
      exact h.anchored_of_sends hr hsends
  · exact h

lemma Paced.update (i : ℕ) : ∃ k', Paced r linkMDU (x.update r linkMDU i) k' m := by
  rw [HashmapExchange.update]
  split
  · rename_i segment hsegment
    split_ifs
    · have hm : segment ≤ m := h.update_le _ (mem_of_getElem? hsegment)
      obtain ⟨hnext, hadds⟩ := h.applySegment hr segment
      have hE := hashmapEntriesPerSegment_pos linkMDU
      have hknown : (x.rx.applySegment r linkMDU segment).known = .range (min
          (max k (segment + 1) * hashmapEntriesPerSegment linkMDU) r.partCount) := by
        refine known_eq_range_of_segments hE fun i => ?_
        rw [hadds, h.known_eq, Finset.mem_range, lt_min_iff, ← Nat.div_lt_iff_lt_mul hE]
        have := hm.trans h.le
        omega
      have hpaced : Paced r linkMDU { x with rx := x.rx.applySegment r linkMDU segment }
          (max k (segment + 1)) m := by
        refine ⟨hnext, lt_max_of_lt_left h.pos, hknown, h.min_eq, h.min_lt, ?_, ?_, ?_, h.update_le⟩
        · exact h.le.trans (le_max_left _ _)
        · exact max_le h.le_succ (by omega)
        · intro body hbody
          exact (h.anchored body hbody).mono (le_max_left _ _)
      exact ⟨_, hpaced.of_hashmap rfl rfl rfl rfl⟩
    · exact ⟨k, h⟩
  · exact ⟨k, h⟩

variable (hdistinct : r.Distinct) (hguard : hashmapEntriesPerSegment linkMDU ≤ collisionGuardSize)
include hdistinct hguard

lemma Paced.chosen {body : Bytes} (hbody : body ∈ x.requests) {segment nextMin : ℕ}
    (hchosen : chosen r linkMDU x.receiverMinPart body = some (segment, nextMin)) :
    nextMin = segment * hashmapEntriesPerSegment linkMDU ∧
      segment * hashmapEntriesPerSegment linkMDU < r.partCount ∧ m ≤ segment ∧ segment ≤ k := by
  rw [HashmapExchange.chosen] at hchosen
  split at hchosen
  · rename_i anchor resourceHash reqHashes hparse
    obtain ⟨j, hpos, hj, hlt, rfl⟩ := h.anchored body hbody _ _ _ hparse
    rw [h.min_eq, Resource.chooseHashmapUpdateSegment_entry hr hdistinct hguard hpos
      (hj.trans h.le_succ) hlt h.min_lt] at hchosen
    by_cases hmj : m ≤ j
    · simp only [if_pos hmj] at hchosen
      split_ifs at hchosen
      obtain ⟨rfl, rfl⟩ := Prod.mk.inj (Option.some.inj hchosen)
      exact ⟨rfl, hlt, hmj, hj⟩
    · split_ifs at hchosen
  · cases hchosen

lemma Paced.answer (i : ℕ) (sent : Bool) :
    ∃ m', Paced r linkMDU (x.answer r linkMDU i sent) k m' := by
  unfold HashmapExchange.answer
  split
  · rename_i segment nextMin hchosen
    obtain ⟨body, hbody, hchosen⟩ := Option.bind_eq_some_iff.1 hchosen
    obtain ⟨rfl, hlt, hm, hk⟩ :=
      h.chosen hr hdistinct hguard (mem_of_getElem? hbody) hchosen
    refine ⟨segment, h.toReceives, h.pos, h.known_eq, rfl, hlt, hk, ?_, h.anchored, ?_⟩
    · exact h.le_succ.trans (by omega)
    · intro s hs
      rcases mem_append.1 hs with hold | hnew
      · exact (h.update_le s hold).trans hm
      · exact (mem_singleton.1 hnew).le
  · exact ⟨m, h⟩

lemma Paced.step (e : Event) : ∃ k' m', Paced r linkMDU (x.step r linkMDU e) k' m' := by
  cases e with
  | request ahead => exact ⟨k, m, h.request hr ahead⟩
  | answer i sent => exact ⟨k, h.answer hr hdistinct hguard i sent⟩
  | update i =>
    obtain ⟨k', hk'⟩ := h.update hr i
    exact ⟨k', m, hk'⟩
  | moved rx => exact ⟨k, m, h.of_hashmap rfl rfl rfl rfl⟩

end

lemma exists_paced (hr : r.Mapped) (hdistinct : r.Distinct) (hpos : 0 < r.partCount)
    (hguard : hashmapEntriesPerSegment linkMDU ≤ collisionGuardSize) (last : ℕ)
    (events : List Event) :
    ∃ k m, Paced r linkMDU (Run.exec (step r linkMDU) (init r linkMDU last) events) k m := by
  refine Run.exec_of_step (I := fun x => ∃ k m, Paced r linkMDU x k m) ?_ ?_ events
  · rintro x e ⟨k, m, h⟩
    exact h.step hr hdistinct hguard e
  · exact ⟨1, 0, paced_init hr hpos linkMDU last⟩

end HashmapExchange

open HashmapExchange in
/-- **A request for more of the hashmap can always be answered.**  Take any exchange on a link that
has settled its MDU, in which the receiver has come to know the first `k` segments of a hashmap that
has more: the sender finds the last map hash that the receiver knows, chooses segment `k` for it,
and that segment has the map hashes that the receiver does not know, from the first of them on. -/
theorem exhausted_request_answerable (r : Resource) (hr : r.Mapped) (hdistinct : r.Distinct)
    (l : PendingLink) (last : ℕ) (events : List Event) (k : ℕ) :
    let linkMDU := l.updateMDU.mdu
    let E := hashmapEntriesPerSegment linkMDU
    let x := Run.exec (step r linkMDU) (init r linkMDU last) events
    k * E < r.partCount → x.rx.hashmapHeight = k * E →
      (∀ i, (x.rx.mapHashes i).isSome = true ↔ i < k * E) ∧
      (∃ anchor, x.rx.mapHashes (k * E - 1) = some anchor ∧
        r.mapHashAt (k * E - 1) = some anchor ∧
        r.chooseHashmapUpdateSegment linkMDU anchor x.receiverMinPart = some (k, k * E)) ∧
      (IncomingResourceAsm.mapHashesOf (r.hashmapSegment linkMDU k)).map some =
        (range' (k * E) (min E (r.partCount - k * E))).map r.mapHashAt := by
  intro linkMDU E x hless hheight
  have hpos := hashmapEntriesPerSegment_pos linkMDU
  have hguard := l.entries_le_guard
  obtain ⟨k', m, h⟩ := exists_paced hr hdistinct (by omega) hguard last events
  obtain ⟨-, hfront⟩ := h.known_eq_range h.known_eq
  have hk : k = k' := by
    refine Nat.eq_of_mul_eq_mul_right hpos ?_
    rw [← h.height_eq_mul (hheight.trans_lt hless)]
    exact hheight.symm
  subst hk
  have hE : E ≤ k * E := Nat.le_mul_of_pos_left E h.pos
  have hlast : k * E - 1 < r.partCount := by omega
  rw [hheight] at hfront
  refine ⟨hfront, ⟨r.entry (k * E - 1), ?_, ?_, ?_⟩, ?_⟩
  · exact h.toSynced.eq_entry (h.toSynced.isSome_iff.1 ((hfront _).2 (by omega)))
  · exact Resource.mapHashAt_of_lt hr hlast
  · rw [h.min_eq, Resource.chooseHashmapUpdateSegment_entry hr hdistinct hguard h.pos h.le_succ
      hless h.min_lt, if_pos h.le]
  · rw [Resource.mapHashesOf_hashmapSegment hr, map_map]
    refine map_congr_left fun i hi => ?_
    rw [mem_range'_1] at hi
    exact (Resource.mapHashAt_of_lt hr (by omega)).symm

def narrowLink : PendingLink := { PendingLink.waitingLink with mtu := 100 }

/-- The second map hash is asked for twice and sent twice, and the receiver applies the second of
the updates while it waits for the third map hash. -/
def repeatedRequests : List HashmapExchange.Event :=
  [.request false, .moved (.start threeParts narrowLink.updateMDU.mdu 0),
    .request false, .answer 1 true, .answer 0 true, .update 0, .request false, .update 1]

open HashmapExchange in
/-- The third map hash is found, though the sender thinks the receiver is one segment behind. -/
theorem threeParts_answerable :
    let linkMDU := narrowLink.updateMDU.mdu
    let x := Run.exec (step threeParts linkMDU) (init threeParts linkMDU 0) repeatedRequests
    x.receiverMinPart = 1 ∧ x.rx.hashmapHeight = 2 ∧
      ∃ anchor, threeParts.mapHashAt 1 = some anchor ∧
        threeParts.chooseHashmapUpdateSegment linkMDU anchor x.receiverMinPart = some (2, 2) := by
  have h := exhausted_request_answerable threeParts (by decide) (by decide) narrowLink 0
    repeatedRequests 2
  have hheight : (Run.exec (step threeParts narrowLink.updateMDU.mdu)
      (init threeParts narrowLink.updateMDU.mdu 0) repeatedRequests).rx.hashmapHeight = 2 := by
    decide +kernel
  obtain ⟨-, ⟨anchor, -, hanchor, hchoose⟩, -⟩ := h (by decide) hheight
  exact ⟨by decide +kernel, hheight, anchor, hanchor, hchoose⟩

end Reticulum

import Reticulum.Transport.AnnounceOrder

/-!
# The queue of outgoing announces

When the announces have used up their part of an interface's bandwidth, they wait in a **queue**
(`pkg/interfaces/announce_queue.go`), one for each destination, from which they are taken by the
number of hops and then by their age.

An announce that is newer than the one in the queue is to replace it: `QueueOutgoingAnnounce` has an
argument for the time at which it was emitted.  But `transmitOrQueueAnnounce`
(`pkg/transport/transport.go`) always passes 0: **`queue_keeps_newest_iff`**.
-/

namespace Reticulum

open List

/-! ## The interface -/

/-- How many announces wait on an interface. -/
def maxQueuedAnnounces : ℕ := 16384

/-- A day, in nanoseconds: after it an announce is not sent any more. -/
def queuedAnnounceLife : ℤ := 24 * 60 * 60 * 1000000000

/-- An announce that waits: since when, and when it was emitted as the caller says. -/
structure QueuedAnnounce where
  dest : Bytes
  queued : ℤ
  hops : UInt8
  emitted : UInt32
  raw : Bytes
deriving DecidableEq

/-- The part of `BaseInterface` that rations announces. -/
structure AnnounceIface where
  announceQueue : List QueuedAnnounce
  bitrate : ℤ
  announceAllowedAt : ℤ
deriving DecidableEq

/-- The destination as an array of 16 bytes. -/
def queueKey (dest : Bytes) : Bytes := (dest ++ replicate 16 0).take 16

/-- The second byte of the header. -/
def announceHops (data : Bytes) : UInt8 := if data.length < 2 then 0 else data.getD 1 0

namespace AnnounceIface

/-- Whether an announce has to wait; it does behind those that wait already. -/
def shouldQueueAnnounce (i : AnnounceIface) (now : ℤ) : Bool :=
  0 < i.announceQueue.length ∨ i.bitrate ≤ 0 ∨ now < i.announceAllowedAt

/-- The first entry for a destination stays, unless the new one was emitted later. -/
def queueOutgoingAnnounce (i : AnnounceIface) (now : ℤ) (raw dest : Bytes) (hops : UInt8)
    (emitted : UInt32) : AnnounceIface :=
  let entry : QueuedAnnounce :=
    { dest := queueKey dest, queued := now, hops, emitted, raw }
  if raw.length = 0 then i
  else if maxQueuedAnnounces ≤ i.announceQueue.length then i
  else
    match i.announceQueue.findIdx? (·.dest = entry.dest) with
    | some idx =>
      if (i.announceQueue.getD idx entry).emitted < emitted then
        { i with announceQueue := i.announceQueue.set idx entry }
      else i
    | none => { i with announceQueue := i.announceQueue ++ [entry] }

section Bandwidth

-- how long an announce of so many bytes keeps others from the interface, by its bit rate and the
-- part of it that announces may take
variable (wait : ℕ → ℤ)

variable (i : AnnounceIface)

/-- The interface is closed for announces until the one that is sent has used up its part. -/
def noteAnnounceSent (now : ℤ) (nbytes : ℕ) : AnnounceIface :=
  if i.bitrate ≤ 0 ∨ nbytes = 0 then i else { i with announceAllowedAt := now + wait nbytes }

/-- Fewer hops first, then the longer wait. -/
def before (a b : QueuedAnnounce) : Bool :=
  a.hops < b.hops ∨ a.hops = b.hops ∧ a.queued < b.queued

/-- The loop over the queue: `b` is the best entry so far and `sel` its index, `idx` the index of
the first of the entries that are left. -/
def selectAnnounce (b : QueuedAnnounce) (sel idx : ℕ) : List QueuedAnnounce → ℕ
  | [] => sel
  | a :: rest =>
    if before a b then selectAnnounce a idx (idx + 1) rest else selectAnnounce b sel (idx + 1) rest

/-- The entries that have not expired. -/
def fresh (now : ℤ) : List QueuedAnnounce :=
  i.announceQueue.filter fun e => ¬ queuedAnnounceLife < now - e.queued

/-- The interface, and the packet that is to be sent now. -/
def nextOutgoingAnnounce (now : ℤ) : AnnounceIface × Option Bytes :=
  let kept := i.fresh now
  match kept with
  | [] => ({ i with announceQueue := kept }, none)
  | first :: rest =>
    if now < i.announceAllowedAt ∨ i.bitrate ≤ 0 then ({ i with announceQueue := kept }, none)
    else
      let sel := selectAnnounce first 0 1 rest
      let chosen := kept.getD sel first
      (noteAnnounceSent wait { i with announceQueue := kept.eraseIdx sel } now chosen.raw.length,
        some chosen.raw)

def dropAnnounceQueue : AnnounceIface := { i with announceQueue := [] }

/-- `transmitOrQueueAnnounce` on an interface with a queue: the interface, and what is sent at once.
The time of emission is not passed on. -/
def transmitOrQueueAnnounce (now : ℤ) (data dest : Bytes) : AnnounceIface × Option Bytes :=
  let hops := announceHops data
  if 0 < hops then
    if i.shouldQueueAnnounce now then (i.queueOutgoingAnnounce now data dest hops 0, none)
    else (noteAnnounceSent wait i now data.length, some data)
  else (i, some data)

end Bandwidth

end AnnounceIface

/-! ## Runs -/

/-- When an announce was emitted, as its random blob has it. -/
def announceEmission (raw : Bytes) : ℕ := emissionTime (announceRandom raw)

/-- An interface, and the announces that were offered to its queue for destinations that are in it:
destination and packet, since the destination is in the queue. -/
structure AnnounceQueueState where
  iface : AnnounceIface
  offered : List (Bytes × Bytes)
deriving DecidableEq

/-- An announce is forwarded, the next one is taken from the queue, or the queue is dropped. -/
inductive AnnounceQueueEvent where
  | forward (now : ℤ) (data dest : Bytes)
  | next (now : ℤ)
  | drop
deriving DecidableEq

namespace AnnounceQueueState

open AnnounceIface

variable (wait : ℕ → ℤ) {i : AnnounceIface} {data dest : Bytes} {s : AnnounceQueueState} {now : ℤ}
  {b : QueuedAnnounce}

/-- Whether a forwarded announce comes to the queue; the node's own ones (no hops) never do. -/
def offers (i : AnnounceIface) (now : ℤ) (data : Bytes) : Bool :=
  0 < announceHops data ∧ i.shouldQueueAnnounce now

/-- Only what was offered for destinations in the queue is kept in mind. -/
def recordOffers (i : AnnounceIface) (offered : List (Bytes × Bytes)) : AnnounceQueueState where
  iface := i
  offered := offered.filter fun o => o.1 ∈ i.announceQueue.map (·.dest)

def step (s : AnnounceQueueState) : AnnounceQueueEvent → AnnounceQueueState
  | .forward now data dest =>
    recordOffers (s.iface.transmitOrQueueAnnounce wait now data dest).1
      (if offers s.iface now data then s.offered ++ [(queueKey dest, data)] else s.offered)
  | .next now => recordOffers (s.iface.nextOutgoingAnnounce wait now).1 s.offered
  | .drop => recordOffers s.iface.dropAnnounceQueue s.offered

def init (bitrate allowedAt : ℤ) : AnnounceQueueState where
  iface := { announceQueue := [], bitrate, announceAllowedAt := allowedAt }
  offered := []

/-- One entry for a destination, a bounded number of them, and each the newest that was offered. -/
structure KeepsNewest (s : AnnounceQueueState) : Prop where
  nodup : (s.iface.announceQueue.map (·.dest)).Nodup
  length_le : s.iface.announceQueue.length ≤ maxQueuedAnnounces
  newest : ∀ e ∈ s.iface.announceQueue, (e.dest, e.raw) ∈ s.offered ∧
    ∀ o ∈ s.offered, o.1 = e.dest → announceEmission o.2 ≤ announceEmission e.raw

/-- And the entry that is sent next has the fewest hops, and has waited longest among those. -/
structure QueueKeeps (s : AnnounceQueueState) : Prop extends KeepsNewest s where
  next : ∀ now raw, (s.iface.nextOutgoingAnnounce wait now).2 = some raw →
    ∃ e ∈ s.iface.fresh now, e.raw = raw ∧ ∀ e' ∈ s.iface.fresh now,
      e.hops < e'.hops ∨ e.hops = e'.hops ∧ e.queued ≤ e'.queued

/-- No announce is offered that is newer than the one that waits for its destination. -/
def NotNewer (s : AnnounceQueueState) : AnnounceQueueEvent → Prop
  | .forward now data dest => offers s.iface now data = true →
    ∀ e ∈ s.iface.announceQueue, e.dest = queueKey dest →
      announceEmission data ≤ announceEmission e.raw
  | .next _ => True
  | .drop => True

/-! ## The next announce -/

lemma before_iff {a : QueuedAnnounce} : before a b ↔
      a.hops.toNat < b.hops.toNat ∨ a.hops.toNat = b.hops.toNat ∧ a.queued < b.queued := by
  simp [before, UInt8.lt_iff_toNat_lt, UInt8.toNat_inj]

lemma not_before_iff {e c : QueuedAnnounce} :
    ¬ before e c ↔ c.hops < e.hops ∨ c.hops = e.hops ∧ c.queued ≤ e.queued := by
  rw [before_iff, UInt8.lt_iff_toNat_lt, ← UInt8.toNat_inj]
  omega

lemma not_before_of_before {a e : QueuedAnnounce} (h : before a b) (he : ¬ before e b)
    : ¬ before e a := by
  rw [before_iff] at h he ⊢
  omega

lemma not_before_self (a : QueuedAnnounce) : ¬ before a a := by
  rw [before_iff]
  omega

/-- **The entry that is chosen**: none is sent before it.  The invariant of the loop is that none of
the entries so far is sent before the best one. -/
lemma selectAnnounce_spec {l rest : List QueuedAnnounce} {sel idx : ℕ} (hb : l[sel]? = some b)
    (hrest : l.drop idx = rest) (hbest : ∀ e ∈ l.take idx, ¬ before e b) :
    ∃ c, l[selectAnnounce b sel idx rest]? = some c ∧ ∀ e ∈ l, ¬ before e c := by
  induction rest generalizing b sel idx with
  | nil =>
    refine ⟨b, hb, ?_⟩
    intro e he
    refine hbest e ?_
    rwa [← take_append_drop idx l, hrest, append_nil] at he
  | cons a rest ih =>
    have ha : l[idx]? = some a := by
      have hget := congrArg (·[0]?) hrest
      simpa using hget
    have hdrop : l.drop (idx + 1) = rest := by
      rw [← tail_drop, hrest, tail_cons]
    have htake : l.take (idx + 1) = l.take idx ++ [a] := by
      rw [take_add_one, ha]
      rfl
    rw [selectAnnounce]
    split_ifs with hbefore
    · refine ih ha hdrop ?_
      intro e he
      rw [htake, mem_append, mem_singleton] at he
      rcases he with he | rfl
      · exact not_before_of_before hbefore (hbest e he)
      · exact not_before_self e
    · refine ih hb hdrop ?_
      intro e he
      rw [htake, mem_append, mem_singleton] at he
      rcases he with he | rfl
      · exact hbest e he
      · exact hbefore

/-- **The announce that is sent next** has the least hops, and has waited longest among those. -/
lemma next_least (i : AnnounceIface) {raw : Bytes}
    (h : (i.nextOutgoingAnnounce wait now).2 = some raw) :
    ∃ e ∈ i.fresh now, e.raw = raw ∧ ∀ e' ∈ i.fresh now,
      e.hops < e'.hops ∨ e.hops = e'.hops ∧ e.queued ≤ e'.queued := by
  unfold nextOutgoingAnnounce at h
  cases hkept : i.fresh now with
  | nil => simp [hkept] at h
  | cons first rest =>
    simp only [hkept] at h
    split_ifs at h
    obtain ⟨c, hc, hleast⟩ : ∃ c, (first :: rest)[selectAnnounce first 0 1 rest]? = some c ∧
        ∀ e ∈ first :: rest, ¬ before e c :=
      selectAnnounce_spec rfl rfl (by simp [not_before_self])
    rw [getD_eq_getElem?_getD, hc] at h
    exact ⟨c, mem_of_getElem? hc, Option.some.inj h,
      fun e' he' => not_before_iff.1 (hleast e' he')⟩

lemma next_sublist (i : AnnounceIface) (now : ℤ) :
    (i.nextOutgoingAnnounce wait now).1.announceQueue.Sublist i.announceQueue := by
  have hfresh : (i.fresh now).Sublist i.announceQueue := filter_sublist
  have hnote : ∀ (j) n,
      (noteAnnounceSent wait j now n).announceQueue = j.announceQueue := by
    intro j n
    rw [noteAnnounceSent]
    split_ifs <;> rfl
  unfold nextOutgoingAnnounce
  cases hkept : i.fresh now with
  | nil =>
    exact nil_sublist _
  | cons first rest =>
    rw [hkept] at hfresh
    split_ifs
    · exact hfresh
    · rw [hnote]
      exact (eraseIdx_sublist _ _).trans hfresh

/-! ## What the queue keeps -/

def entryOf (now : ℤ) (data dest : Bytes) : QueuedAnnounce where
  dest := queueKey dest
  queued := now
  hops := announceHops data
  emitted := 0
  raw := data

/-- **An offer without a time** changes nothing for a destination that is in the queue. -/
lemma queue_offer (now : ℤ) (hdata : data.length ≠ 0) (dest : Bytes) :
    (i.queueOutgoingAnnounce now data dest (announceHops data) 0).announceQueue =
      if maxQueuedAnnounces ≤ i.announceQueue.length ∨
          queueKey dest ∈ i.announceQueue.map (·.dest) then i.announceQueue
      else i.announceQueue ++ [entryOf now data dest] := by
  simp only [queueOutgoingAnnounce, if_neg hdata]
  by_cases hfull : maxQueuedAnnounces ≤ i.announceQueue.length
  · rw [if_pos hfull, if_pos (.inl hfull)]
  · rw [if_neg hfull]
    cases hfind : i.announceQueue.findIdx? (·.dest = queueKey dest) with
    | none =>
      have habsent : queueKey dest ∉ i.announceQueue.map (·.dest) := by
        simpa using hfind
      rw [if_neg (not_or.2 ⟨hfull, habsent⟩)]
      rfl
    | some idx =>
      obtain ⟨hlt, hdest, -⟩ := findIdx?_eq_some_iff_getElem.1 hfind
      have hmem : i.announceQueue[idx] ∈ i.announceQueue := getElem_mem hlt
      have hpresent : queueKey dest ∈ i.announceQueue.map (·.dest) := by
        rw [mem_map]
        exact ⟨_, hmem, by simpa using hdest⟩
      rw [if_pos (.inr hpresent)]
      simp

structure Inv (s : AnnounceQueueState) : Prop extends KeepsNewest s where
  waits : ∀ o ∈ s.offered, o.1 ∈ s.iface.announceQueue.map (·.dest)

lemma mem_recordOffers {offered : List (Bytes × Bytes)} {o : Bytes × Bytes} :
    o ∈ (recordOffers i offered).offered ↔ o ∈ offered ∧ o.1 ∈ i.announceQueue.map (·.dest) := by
  simp [recordOffers]

lemma Inv.keeps (h : s.Inv) : s.QueueKeeps wait where
  toKeepsNewest := h.toKeepsNewest
  next _ _ hnext := next_least wait s.iface hnext

lemma KeepsNewest.record (h : s.KeepsNewest) : (recordOffers s.iface s.offered).Inv := { h with
  newest := fun e he => by
    obtain ⟨hoffered, hnewest⟩ := h.newest e he
    refine ⟨mem_recordOffers.2 ⟨hoffered, mem_map_of_mem he⟩, ?_⟩
    intro o ho
    exact hnewest o (mem_recordOffers.1 ho).1
  waits := fun o ho => (mem_recordOffers.1 ho).2 }

lemma Inv.of_sublist (h : s.Inv) (hsub : i.announceQueue.Sublist s.iface.announceQueue) :
    (recordOffers i s.offered).Inv := by
  refine KeepsNewest.record (s := ⟨i, s.offered⟩) ⟨?_, ?_, ?_⟩
  · exact h.nodup.sublist (hsub.map _)
  · exact hsub.length_le.trans h.length_le
  · intro e he
    exact h.newest e (hsub.mem he)

lemma Inv.append (h : s.Inv) (hroom : s.iface.announceQueue.length < maxQueuedAnnounces)
    (habsent : queueKey dest ∉ s.iface.announceQueue.map (·.dest))
    (hi : i.announceQueue = s.iface.announceQueue ++ [entryOf now data dest]) :
    (recordOffers i (s.offered ++ [(queueKey dest, data)])).Inv := by
  refine KeepsNewest.record (s := ⟨i, s.offered ++ [(queueKey dest, data)]⟩) ⟨?_, ?_, ?_⟩
  · simp only [hi, map_append]
    exact nodup_append_comm.1 (nodup_cons.2 ⟨habsent, h.nodup⟩)
  · simp only [hi, length_append]
    exact hroom
  · simp only [hi, mem_append, mem_singleton]
    rintro e (he | rfl)
    · obtain ⟨hoffered, hnewest⟩ := h.newest e he
      refine ⟨.inl hoffered, ?_⟩
      rintro o (hold | rfl) hdest
      · exact hnewest o hold hdest
      · -- the offer is for another destination
        exact absurd (mem_map.2 ⟨e, he, hdest.symm⟩) habsent
    · refine ⟨.inr rfl, ?_⟩
      rintro o (hold | rfl) hdest
      · have hkey : o.1 = queueKey dest := hdest
        exact absurd (hkey ▸ h.waits o hold) habsent
      · exact le_refl _

lemma Inv.offer (h : s.Inv) (hi : i.announceQueue = s.iface.announceQueue)
    (hold : ∀ e ∈ s.iface.announceQueue, e.dest = queueKey dest →
      announceEmission data ≤ announceEmission e.raw) :
    (recordOffers i (s.offered ++ [(queueKey dest, data)])).Inv := by
  refine KeepsNewest.record (s := ⟨i, s.offered ++ [(queueKey dest, data)]⟩) ⟨?_, ?_, ?_⟩
  · simp only [hi]
    exact h.nodup
  · simp only [hi]
    exact h.length_le
  · simp only [hi, mem_append, mem_singleton]
    intro e he
    obtain ⟨hoffered, hnewest⟩ := h.newest e he
    refine ⟨.inl hoffered, ?_⟩
    rintro o (hprev | rfl) hdest
    · exact hnewest o hprev hdest
    · exact hold e he hdest.symm

lemma length_of_offers (h : offers i now data) : data.length ≠ 0 := by
  intro hnil
  simp [offers, announceHops, hnil] at h

lemma transmit_of_offers (h : offers i now data) :
    (i.transmitOrQueueAnnounce wait now data dest).1 =
      i.queueOutgoingAnnounce now data dest (announceHops data) 0 := by
  simp only [offers, decide_eq_true_eq] at h
  simp [transmitOrQueueAnnounce, if_pos h.1, if_pos h.2]

lemma queue_transmit (h : ¬ offers i now data) :
    (i.transmitOrQueueAnnounce wait now data dest).1.announceQueue = i.announceQueue := by
  simp only [offers, decide_eq_true_eq, not_and] at h
  simp only [transmitOrQueueAnnounce, noteAnnounceSent]
  split_ifs with hops hqueue hrate
  · exact absurd hqueue (h hops)
  · rfl
  · rfl
  · rfl

/-- **One step** keeps the invariant, if what is offered is not newer than what waits. -/
lemma Inv.step (h : s.Inv) {e : AnnounceQueueEvent} (he : s.NotNewer e) : (s.step wait e).Inv := by
  cases e with
  | next now => exact h.of_sublist (next_sublist wait s.iface now)
  | drop => exact h.of_sublist (nil_sublist _)
  | forward now data dest =>
    rw [AnnounceQueueState.step]
    by_cases hoffer : offers s.iface now data
    · rw [if_pos hoffer, transmit_of_offers wait hoffer]
      have hqueue := queue_offer (i := s.iface) now (length_of_offers hoffer) dest
      split_ifs at hqueue with hsame
      · exact h.offer hqueue (he hoffer)
      · simp only [not_or, not_le] at hsame
        exact h.append hsame.1 hsame.2 hqueue
    · rw [if_neg hoffer]
      refine h.of_sublist ?_
      rw [queue_transmit wait hoffer]

lemma not_keeps_of_newer {e : AnnounceQueueEvent} (he : ¬ s.NotNewer e) :
    ¬ (s.step wait e).QueueKeeps wait := by
  cases e with
  | next now | drop => exact absurd trivial he
  | forward now data dest =>
    simp only [NotNewer, not_forall] at he
    obtain ⟨hoffer, entry, hentry, hdest, hnewer⟩ := he
    intro hkeeps
    have hpresent : queueKey dest ∈ s.iface.announceQueue.map (·.dest) :=
      mem_map.2 ⟨entry, hentry, hdest⟩
    have hqueue := queue_offer (i := s.iface) now (length_of_offers hoffer) dest
    rw [if_pos (.inr hpresent)] at hqueue
    rw [step, if_pos hoffer, transmit_of_offers wait hoffer] at hkeeps
    refine hnewer ((hkeeps.newest entry ?_).2 (queueKey dest, data) ?_ hdest.symm)
    · change entry ∈ (queueOutgoingAnnounce _ _ _ _ _ _).announceQueue
      rw [hqueue]
      exact hentry
    · refine mem_recordOffers.2 ⟨mem_append_right _ (mem_singleton.2 rfl), ?_⟩
      rw [hqueue]
      exact hpresent

lemma inv_init (bitrate allowedAt : ℤ) : (init bitrate allowedAt).Inv where
  nodup := nodup_nil
  length_le := Nat.zero_le _
  newest e he := by cases he
  waits o ho := by cases ho

/-- **When the queue keeps the newest announces**: exactly in the runs in which no announce is
offered that is newer than the one that waits for its destination. -/
theorem queue_keeps_newest_iff (bitrate allowedAt : ℤ) (es : List AnnounceQueueEvent) :
    Run.Always (step wait) (QueueKeeps wait) (init bitrate allowedAt) es ↔
      Run.Along (step wait) NotNewer (init bitrate allowedAt) es :=
  Run.always_iff_along (fun _ h => h.keeps wait) (fun _ _ h he => h.step wait he)
    (fun _ _ _ he => not_keeps_of_newer wait he) (inv_init bitrate allowedAt)

def sampleAnnounce (emitted : UInt8) : Bytes :=
  [0x01, 0x01] ++ replicate 16 7 ++ replicate 84 0 ++ [emitted]

/-- Two announces are offered while the interface has no bandwidth for them, and the first one
stays. -/
theorem newer_announce_ignored :
    ¬ ∀ (wait : ℕ → ℤ) (bitrate allowedAt : ℤ) (es : List AnnounceQueueEvent),
      Run.Always (step wait) (QueueKeeps wait) (init bitrate allowedAt) es := by
  intro h
  have hlast := (h (fun _ => 0) 1000 100 [.forward 1 (sampleAnnounce 1) (replicate 16 7),
    .forward 2 (sampleAnnounce 2) (replicate 16 7)]).last
  have hold := (hlast.newest (entryOf 1 (sampleAnnounce 1) (replicate 16 7))
    (by decide +kernel)).2 (replicate 16 7, sampleAnnounce 2) (by decide +kernel) rfl
  revert hold
  decide +kernel

end AnnounceQueueState

end Reticulum

import Reticulum.Packet.Pack
import Reticulum.Transport.Forwarding

/-!
# Path responses

A node that is asked for a path it knows answers with a **path response** on the interface the
request came from.  The response waits in the announce table, which has *one* place for each
destination; a response for another interface that is there already is moved to the held announces,
with one place as well, and comes back when the response that displaced it *has been sent*
(`pkg/transport/announce_table.go`).

Whatever else removes that response leaves the held one behind, and a third interface that asks
takes its place (`threeRequesters_lost`).  **`responses_kept`** says what has to be true at each
step for neither to happen.
-/

namespace Reticulum

open Packet.Constants Option List

/-! ## Entries -/

namespace AnnounceTable.Constants

def pathRequestGrace : ℕ := 400 * 10 ^ 6

def pathfinderR : ℕ := 1
def localRebroadcastsMax : ℕ := 2

def retransmitDelay : ℕ := 5500 * 10 ^ 6

end AnnounceTable.Constants

open AnnounceTable.Constants

structure AnnouncePacket extends Packet where
  data_ne : data ≠ []
  length_destinationHash : destinationHash.length = truncatedHashLength
deriving DecidableEq

/-- An entry of the announce table.  Entries are compared by address, which `id` stands for. -/
structure PathAnnounceEntry where
  id : ℕ
  createdAt : ℕ
  retransmitTimeout : ℕ
  retries : ℕ
  receivedFrom : Option ℕ
  announceHops : UInt8
  packet : AnnouncePacket
  blockRebroadcasts : Bool
  attachedInterface : Option ℕ
deriving DecidableEq

namespace PathAnnounceEntry

def responsePacket (transportID : Bytes) (entry : PathAnnounceEntry) : Packet where
  headerType := .headerType2
  packetType := .announce
  transportType := 1
  destinationType := .single
  destinationHash := entry.packet.destinationHash
  transportID
  context := if entry.blockRebroadcasts then contextPathResponse else contextNone
  contextFlag := entry.packet.contextFlag
  data := entry.packet.data
  hops := entry.announceHops
  raw := []

/-- The bytes of the response.  What the source checks of the packet besides is part of its type. -/
def buildPathResponseWire (transportIdentity : Option Bytes) (entry : PathAnnounceEntry) :
    Except String Bytes :=
  match transportIdentity with
  | none => .error "no transport identity"
  | some id =>
    match (entry.responsePacket id).pack false with
    | .error err => .error err
    | .ok out => .ok out.raw

def completed (entry : PathAnnounceEntry) : Bool :=
  (0 < entry.retries && localRebroadcastsMax ≤ entry.retries) || pathfinderR < entry.retries

def references (iface : ℕ) (entry : PathAnnounceEntry) : Bool :=
  entry.receivedFrom == some iface || entry.attachedInterface == some iface

def new (id now : ℕ) (path : Path) (attachedIface : ℕ) (isFromLocalClient : Bool)
    (srcPkt : AnnouncePacket) : PathAnnounceEntry where
  id
  createdAt := now
  retransmitTimeout := if isFromLocalClient then now else now + pathRequestGrace
  retries := pathfinderR
  receivedFrom := path.iface
  announceHops := path.hopCount
  packet := srcPkt
  blockRebroadcasts := true
  attachedInterface := some attachedIface

/-- The entry when it is due: it is not due again for a while, and counted. -/
def retransmitted (now : ℕ) (entry : PathAnnounceEntry) : PathAnnounceEntry :=
  { entry with retransmitTimeout := now + retransmitDelay, retries := entry.retries + 1 }

def response (entry : PathAnnounceEntry) : ℕ × Option ℕ := (entry.id, entry.attachedInterface)

end PathAnnounceEntry

/-! ## One destination -/

/-- The places of a destination: the announce in the cache, the entry of the announce table, and the
held announce.  `queued` and `emitted` record the responses that were accepted and sent. -/
structure PathSlot where
  cached : Option AnnouncePacket
  entry : Option PathAnnounceEntry
  held : Option PathAnnounceEntry
  queued : List (ℕ × Option ℕ)
  emitted : List (ℕ × Option ℕ)
deriving DecidableEq

structure SendState where
  transportIdentity : Option Bytes
  interfaces : ℕ → NetworkInterface

namespace PathSlot

/-- `emitAnnounceTableEntry`.  `sends` is whether the interface accepts the bytes. -/
def emitAnnounceTableEntry (env : SendState) (sends : Bool) (slot : PathSlot)
    (entry : PathAnnounceEntry) : PathSlot :=
  match entry.attachedInterface with
  | none => slot
  | some iface =>
    if !(env.interfaces iface).isEnabled then { slot with entry := none }
    else
      match entry.buildPathResponseWire env.transportIdentity with
      | .error _ => slot
      | .ok _ =>
        if !(env.interfaces iface).allowsOutgoing || !sends then slot
        else
          let slot := { slot with emitted := slot.emitted ++ [entry.response] }
          match slot.held with
          | some held => { slot with held := none, entry := some held }
          | none =>
            -- path responses are sent once
            if slot.entry.any (fun cur => cur.id == entry.id) && entry.blockRebroadcasts then
              { slot with entry := none }
            else slot

def sourcePacket (slot : PathSlot) : Option AnnouncePacket :=
  match slot.cached with
  | some pkt => some pkt
  | none => slot.entry.map PathAnnounceEntry.packet

/-- The entry is put into the table, and sent at once for a local client. -/
def place (env : SendState) (sends isFromLocalClient : Bool) (slot : PathSlot)
    (entry : PathAnnounceEntry) : PathSlot :=
  let slot := { slot with entry := some entry, queued := slot.queued ++ [entry.response] }
  if isFromLocalClient then slot.emitAnnounceTableEntry env sends entry else slot

/-- `queuePathResponseAnnounce`, with the slot it leaves and whether it has queued a response.  The
new entry is the one with the number `id`. -/
def queuePathResponseAnnounce (env : SendState) (sends : Bool) (slot : PathSlot) (id now : ℕ)
    (path : Path) (attachedIface : ℕ) (isFromLocalClient : Bool) : PathSlot × Bool :=
  match slot.sourcePacket with
  | none => (slot, false)
  | some srcPkt =>
    let entry := .new id now path attachedIface isFromLocalClient srcPkt
    match slot.entry with
    | none => (slot.place env sends isFromLocalClient entry, true)
    | some prev =>
      if prev.attachedInterface.isSome then
        -- a retry must not postpone the response
        if prev.blockRebroadcasts && prev.attachedInterface == some attachedIface then (slot, true)
        else ({ slot with held := some prev }.place env sends isFromLocalClient entry, true)
      else (slot.place env sends isFromLocalClient entry, true)

def process (env : SendState) (sends : Bool) (now : ℕ) (slot : PathSlot) : PathSlot :=
  match slot.entry with
  | none => slot
  | some entry =>
    if entry.completed then { slot with entry := none }
    else if now < entry.retransmitTimeout then slot
    else
      let entry := entry.retransmitted now
      { slot with entry := some entry }.emitAnnounceTableEntry env sends entry

def invalidate (iface : ℕ) (slot : PathSlot) : PathSlot :=
  { slot with
    entry := slot.entry.filter fun entry => !entry.references iface
    held := slot.held.filter fun entry => !entry.references iface }

def entries (slot : PathSlot) : List PathAnnounceEntry := slot.entry.toList ++ slot.held.toList

def pending (slot : PathSlot) : List (ℕ × Option ℕ) :=
  slot.entries.map PathAnnounceEntry.response

/-! ### What each function can do -/

variable {env : SendState} {sends isFromLocalClient : Bool} {slot : PathSlot}
  {entry prev : PathAnnounceEntry} {iface now id : ℕ} {path : Path}

def canSend (env : SendState) (sends : Bool) (entry : PathAnnounceEntry) (iface : ℕ) : Bool :=
  (entry.buildPathResponseWire env.transportIdentity).isOk &&
    (env.interfaces iface).allowsOutgoing && sends

/-- The slot when the entry has been sent: the held announce takes its place. -/
def sent (entry : PathAnnounceEntry) (slot : PathSlot) : PathSlot :=
  { slot with emitted := slot.emitted ++ [entry.response], entry := slot.held, held := none }

/-- The slot when a new entry has displaced the one that was there. -/
def displaced (entry : PathAnnounceEntry) (slot : PathSlot) : PathSlot :=
  { slot with
    held := slot.entry.or slot.held, entry := some entry
    queued := slot.queued ++ [entry.response] }

structure IsResponse (entry : PathAnnounceEntry) (iface : ℕ) : Prop where
  attached : entry.attachedInterface = some iface
  blocks : entry.blockRebroadcasts = true

/-- **Sending the entry of the table.**  On a disabled interface it is removed.  If it is sent, the
held announce takes its place.  Otherwise nothing happens. -/
lemma emit_entry (hentry : slot.entry = some entry) (h : IsResponse entry iface) :
    slot.emitAnnounceTableEntry env sends entry =
      if !(env.interfaces iface).isEnabled then { slot with entry := none }
      else if canSend env sends entry iface then slot.sent entry
      else slot := by
  simp only [emitAnnounceTableEntry, h.attached]
  by_cases hdisabled : (!(env.interfaces iface).isEnabled)
  · rw [if_pos hdisabled, if_pos hdisabled]
  cases hwire : entry.buildPathResponseWire env.transportIdentity with
  | error err =>
    have hcan : canSend env sends entry iface = false := by
      simp [canSend, hwire, Except.toBool]
    simp [hcan]
  | ok raw =>
    have hcan : canSend env sends entry iface =
        ((env.interfaces iface).allowsOutgoing && sends) := by
      simp [canSend, hwire, Except.toBool]
    rw [hcan]
    cases hout : (env.interfaces iface).allowsOutgoing with
    | false => simp
    | true =>
      cases sends with
      | false => simp
      | true =>
        cases hheld : slot.held with
        | some held => simp [sent, hheld]
        | none => simp [sent, hheld, hentry, h.blocks]

/-- **A pass over the table**, at a destination with an entry. -/
lemma process_entry (hentry : slot.entry = some entry) (h : IsResponse entry iface) :
    slot.process env sends now =
      if entry.completed then { slot with entry := none }
      else if now < entry.retransmitTimeout then slot
      else if !(env.interfaces iface).isEnabled then { slot with entry := none }
      else if canSend env sends entry iface then slot.sent entry
      else { slot with entry := some (entry.retransmitted now) } := by
  have hresponse : IsResponse (entry.retransmitted now) iface := ⟨h.attached, h.blocks⟩
  have hcan : canSend env sends (entry.retransmitted now) iface = canSend env sends entry iface :=
    rfl
  simp only [process, hentry]
  rw [emit_entry rfl hresponse]
  rfl

/-- **A new entry** for a path response. -/
lemma place_entry (env : SendState) (sends isFromLocalClient : Bool) (slot : PathSlot)
    (h : IsResponse entry iface) :
    slot.place env sends isFromLocalClient entry =
      if !isFromLocalClient then
        { slot with entry := some entry, queued := slot.queued ++ [entry.response] }
      else if !(env.interfaces iface).isEnabled then
        { slot with entry := none, queued := slot.queued ++ [entry.response] }
      else if canSend env sends entry iface then
        { slot.sent entry with queued := slot.queued ++ [entry.response] }
      else { slot with entry := some entry, queued := slot.queued ++ [entry.response] } := by
  simp only [place]
  rw [emit_entry rfl h]
  cases isFromLocalClient <;> rfl

lemma mem_entries : entry ∈ slot.entries ↔ slot.entry = some entry ∨ slot.held = some entry := by
  simp [entries]

def Valid (slot : PathSlot) : Prop := ∀ e ∈ slot.entries, ∃ iface, IsResponse e iface

/-- **A request.**  There is nothing to answer it with; or it is a retry; or the new response takes
the place of the entry, which is held. -/
lemma queue_cases (h : slot.Valid) (env : SendState) (sends : Bool) (id now : ℕ) (path : Path)
    (attachedIface : ℕ) (isFromLocalClient : Bool) :
    (slot.sourcePacket = none ∧
        (slot.queuePathResponseAnnounce env sends id now path attachedIface
          isFromLocalClient).1 = slot) ∨
      (∃ prev, slot.entry = some prev ∧ prev.attachedInterface = some attachedIface ∧
        (slot.queuePathResponseAnnounce env sends id now path attachedIface
          isFromLocalClient).1 = slot) ∨
      ∃ srcPkt, slot.sourcePacket = some srcPkt ∧
        (∀ prev, slot.entry = some prev → prev.attachedInterface ≠ some attachedIface) ∧
        (slot.queuePathResponseAnnounce env sends id now path attachedIface
            isFromLocalClient).1 =
          { slot with held := slot.entry.or slot.held }.place env sends isFromLocalClient
            (.new id now path attachedIface isFromLocalClient srcPkt) := by
  simp only [queuePathResponseAnnounce]
  cases hsource : slot.sourcePacket with
  | none => exact .inl ⟨rfl, rfl⟩
  | some srcPkt =>
    right
    cases hentry : slot.entry with
    | none =>
      refine .inr ⟨srcPkt, rfl, ?_, ?_⟩
      · intro prev hprev
        cases hprev
      · rfl
    | some prev =>
      obtain ⟨iface, hprev⟩ := h prev (mem_entries.2 (.inl hentry))
      simp only [hprev.attached, hprev.blocks, isSome_some, if_true, Bool.true_and,
        beq_iff_eq, some.injEq]
      by_cases hretry : iface = attachedIface
      · refine .inl ⟨prev, rfl, ?_, ?_⟩
        · rw [hprev.attached, hretry]
        · rw [if_pos hretry]
      · refine .inr ⟨srcPkt, rfl, ?_, ?_⟩
        · rintro _ rfl hattached
          rw [hprev.attached] at hattached
          exact hretry (some.inj hattached)
        · rw [if_neg hretry]
          rfl

/-! ### Held announces that are covered -/

def Covered (slot : PathSlot) : Prop := slot.held ≠ none → slot.entry ≠ none

/-- A request of a local client on a disabled interface does not displace an entry. -/
def coversQueue (env : SendState) (attachedIface : ℕ) (isFromLocalClient : Bool)
    (slot : PathSlot) : Prop :=
  isFromLocalClient = true → (env.interfaces attachedIface).isEnabled = false →
    ∀ prev, slot.entry = some prev → prev.attachedInterface = some attachedIface

/-- Where an announce is held, the entry has not been sent as often as it may, and if it is due its
interface is enabled. -/
def coversProcess (env : SendState) (now : ℕ) (slot : PathSlot) : Prop :=
  ∀ entry, slot.entry = some entry → slot.held ≠ none →
    entry.completed = false ∧ (entry.retransmitTimeout ≤ now →
      ∀ iface, entry.attachedInterface = some iface → (env.interfaces iface).isEnabled = true)

/-- The interface is not removed from under the entry alone. -/
def coversInvalidate (iface : ℕ) (slot : PathSlot) : Prop :=
  ∀ entry held, slot.entry = some entry → slot.held = some held →
    entry.references iface = true → held.references iface = true

lemma entries_sent_subset (entry : PathAnnounceEntry) :
    (slot.sent entry).entries ⊆ slot.entries := by
  simp [entries, sent]

lemma Valid.mono (h : slot.Valid) {slot' : PathSlot} (hsub : slot'.entries ⊆ slot.entries) :
    slot'.Valid :=
  fun e he => h e (hsub he)

lemma Valid.withEntry (h : slot.Valid) (hentry : IsResponse entry iface) :
    Valid { slot with entry := some entry } := by
  intro e he
  rcases mem_entries.1 he with ⟨⟨⟩⟩ | he
  · exact ⟨iface, hentry⟩
  · exact h e (mem_entries.2 (.inr he))

lemma Valid.place (h : slot.Valid) (hentry : IsResponse entry iface) :
    (slot.place env sends isFromLocalClient entry).Valid := by
  rw [place_entry env sends isFromLocalClient slot hentry]
  split_ifs
  · exact h.withEntry hentry
  · exact h.mono (by simp [entries])
  · exact h.mono (entries_sent_subset entry)
  · exact h.withEntry hentry

lemma Valid.queue (h : slot.Valid) (attachedIface : ℕ) :
    (slot.queuePathResponseAnnounce env sends id now path attachedIface
      isFromLocalClient).1.Valid := by
  rcases queue_cases h env sends id now path attachedIface isFromLocalClient with
    ⟨-, heq⟩ | ⟨_, _, _, heq⟩ | ⟨srcPkt, _, _, heq⟩
  · rwa [heq]
  · rwa [heq]
  · rw [heq]
    refine Valid.place (fun e he => h e ?_) ⟨rfl, rfl⟩
    simp only [mem_entries, or_eq_some_iff] at he ⊢
    tauto

lemma Valid.process (h : slot.Valid) : (slot.process env sends now).Valid := by
  cases hentry : slot.entry with
  | none =>
    simp only [PathSlot.process, hentry]
    exact h
  | some entry =>
    obtain ⟨iface, hresponse⟩ := h entry (mem_entries.2 (.inl hentry))
    rw [process_entry hentry hresponse]
    split_ifs
    · exact h.mono (by simp [entries])
    · exact h
    · exact h.mono (by simp [entries])
    · exact h.mono (entries_sent_subset entry)
    · exact h.withEntry ⟨hresponse.attached, hresponse.blocks⟩

lemma Valid.invalidate (h : slot.Valid) (iface : ℕ) : (slot.invalidate iface).Valid := by
  intro e he
  refine h e (mem_entries.2 ((mem_entries.1 he).imp ?_ ?_))
  all_goals exact fun he => (filter_eq_some_iff.1 he).1

lemma covered_place (env : SendState) (sends isFromLocalClient : Bool) (slot : PathSlot)
    (h : IsResponse entry iface) : (slot.place env sends isFromLocalClient entry).Covered ↔
      (isFromLocalClient → (env.interfaces iface).isEnabled = false → slot.held = none) := by
  rw [place_entry env sends isFromLocalClient slot h]
  split_ifs with hlocal hdisabled hsend
  · simp_all [Covered]
  · simp_all [Covered]
  · simp_all [Covered, sent]
  · simp_all [Covered]

lemma covered_queue (hvalid : slot.Valid) (hcovered : slot.Covered) (attachedIface : ℕ) :
    (slot.queuePathResponseAnnounce env sends id now path attachedIface
        isFromLocalClient).1.Covered ↔
      coversQueue env attachedIface isFromLocalClient slot := by
  rcases queue_cases hvalid env sends id now path attachedIface isFromLocalClient with
    ⟨hsource, heq⟩ | ⟨prev, hprev, hattached, heq⟩ | ⟨srcPkt, _, hother, heq⟩
  · -- without an announce to answer with there is no entry either
    have hentry : slot.entry = none := by
      cases hentry : slot.entry with
      | none => rfl
      | some e => cases hcached : slot.cached <;> simp [sourcePacket, hcached, hentry] at hsource
    rw [heq]
    refine iff_of_true hcovered ?_
    intro _ _ prev hprev
    rw [hentry] at hprev
    cases hprev
  · rw [heq]
    refine iff_of_true hcovered ?_
    intro _ _ prev' hprev'
    rw [hprev] at hprev'
    obtain rfl := some.inj hprev'
    exact hattached
  · have hnew : IsResponse (.new id now path attachedIface isFromLocalClient srcPkt)
        attachedIface := ⟨rfl, rfl⟩
    rw [heq, covered_place env sends isFromLocalClient _ hnew]
    refine forall₂_congr fun _ _ => ?_
    simp only [or_eq_none_iff]
    constructor
    · rintro ⟨hentry, -⟩ prev hprev
      rw [hentry] at hprev
      cases hprev
    · intro hall
      have hentry : slot.entry = none := by
        by_contra hne
        obtain ⟨prev, hprev⟩ := ne_none_iff_exists'.1 hne
        exact hother prev hprev (hall prev hprev)
      refine ⟨hentry, ?_⟩
      by_contra hheld
      exact hcovered hheld hentry

lemma covered_process (hvalid : slot.Valid) (hcovered : slot.Covered) :
    (slot.process env sends now).Covered ↔ coversProcess env now slot := by
  cases hentry : slot.entry with
  | none =>
    simp only [process, hentry]
    refine iff_of_true hcovered ?_
    intro entry he
    rw [hentry] at he
    cases he
  | some entry =>
    obtain ⟨iface, hresponse⟩ := hvalid entry (mem_entries.2 (.inl hentry))
    have hcovers : coversProcess env now slot ↔ (slot.held ≠ none → entry.completed = false ∧
        (entry.retransmitTimeout ≤ now → (env.interfaces iface).isEnabled)) := by
      simp [coversProcess, hentry, hresponse.attached]
    rw [hcovers, process_entry hentry hresponse]
    split_ifs with hcompleted hdue hdisabled hsend
    · simp [Covered, hcompleted]
    · simp_all
    · simp_all [Covered]
    · simp_all [Covered, sent]
    · simp_all [Covered]

lemma covered_invalidate (hcovered : slot.Covered) (iface : ℕ) :
    (slot.invalidate iface).Covered ↔ coversInvalidate iface slot := by
  simp only [Covered, invalidate, coversInvalidate] at hcovered ⊢
  cases hheld : slot.held with
  | none => simp
  | some held =>
    obtain ⟨entry, hentry⟩ := ne_none_iff_exists'.1 (hcovered (by simp [hheld]))
    rw [hentry]
    by_cases he : entry.references iface <;> by_cases hh : held.references iface <;>
      simp [he]

lemma invalidate_eq_self (h : ∀ e ∈ slot.entries, e.references iface = false) :
    slot.invalidate iface = slot := by
  have hentry : slot.entry.filter (fun e => !e.references iface) = slot.entry := by
    cases hentry : slot.entry with
    | none => rfl
    | some e => simp [h e (by simp [entries, hentry])]
  have hheld : slot.held.filter (fun e => !e.references iface) = slot.held := by
    cases hheld : slot.held with
    | none => rfl
    | some e => simp [h e (by simp [entries, hheld])]
  rw [invalidate, hentry, hheld]

/-! ### Responses that are not lost -/

def Sendable (transportIdentity : Option Bytes) (pkt : AnnouncePacket) : Prop :=
  ∃ id, transportIdentity = some id ∧ id.length = truncatedHashLength ∧
    35 + pkt.data.length ≤ mtu

lemma Sendable.isOk {transportIdentity : Option Bytes}
    (h : Sendable transportIdentity entry.packet) :
    (entry.buildPathResponseWire transportIdentity).isOk := by
  obtain ⟨id, rfl, hid, hmtu⟩ := h
  have hdest := entry.packet.length_destinationHash
  have hwire : (entry.responsePacket id).wire.length = 35 + entry.packet.data.length := by
    simp only [Packet.wire, Packet.wireTransportID, PathAnnounceEntry.responsePacket,
      length_append, length_cons, length_nil, hid, hdest, truncatedHashLength]
  have hne : id ≠ [] := by
    rintro rfl
    cases hid
  have htransport : (entry.responsePacket id).transportIDError = none := by
    simp [Packet.transportIDError, PathAnnounceEntry.responsePacket, hne, hid]
  have hhash : ¬ ((entry.responsePacket id).destinationHash.length ≠ 0 ∧
      (entry.responsePacket id).destinationHash.length ≠ truncatedHashLength) := by
    rintro ⟨-, hlength⟩
    exact hlength hdest
  simp only [PathAnnounceEntry.buildPathResponseWire, Packet.pack, Bool.false_eq_true, if_false,
    if_neg hhash, htransport, if_neg (show ¬ mtu < (entry.responsePacket id).wire.length by
      rw [hwire]; omega)]
  rfl

/-- Every response that was accepted has been sent or waits, and there is one of each. -/
structure Conserved (slot : PathSlot) : Prop where
  perm : slot.queued.Perm (slot.emitted ++ slot.pending)
  nodup : slot.queued.Nodup

/-- The invariant of a destination all of whose responses are sent when they are due. -/
structure Sound (transportIdentity : Option Bytes) (count : ℕ) (slot : PathSlot) : Prop
    extends Conserved slot where
  valid : slot.Valid
  covered : slot.Covered
  numbered : ∀ r ∈ slot.queued, r.1 < count
  waiting : ∀ e ∈ slot.entries, e.retries ≤ pathfinderR ∧ Sendable transportIdentity e.packet

/-- The interfaces of the entries are there to be sent on. -/
def Ready (env : SendState) (slot : PathSlot) : Prop :=
  ∀ e ∈ slot.entries, ∀ iface, e.attachedInterface = some iface →
    (env.interfaces iface).isEnabled = true ∧ (env.interfaces iface).allowsOutgoing = true

/-- There is room for a response: nothing is held, unless it is a retry.  And it can be sent. -/
def roomyQueue (env : SendState) (attachedIface : ℕ) (slot : PathSlot) : Prop :=
  (slot.held = none ∨
      ∀ prev, slot.entry = some prev → prev.attachedInterface = some attachedIface) ∧
    ∀ srcPkt, slot.sourcePacket = some srcPkt → Sendable env.transportIdentity srcPkt

variable {count : ℕ}

lemma completed_of_fresh (h : entry.retries ≤ pathfinderR) : entry.completed = false := by
  have hmax : ¬ localRebroadcastsMax ≤ entry.retries := by
    rw [localRebroadcastsMax]
    rw [pathfinderR] at h
    omega
  simp [PathAnnounceEntry.completed, hmax, h]

section

variable (h : slot.Sound env.transportIdentity count)
include h

lemma Sound.process_eq (hready : slot.Ready env) (hentry : slot.entry = some entry) :
    slot.process env true now =
      if now < entry.retransmitTimeout then slot else slot.sent entry := by
  have hmem : entry ∈ slot.entries := mem_entries.2 (.inl hentry)
  obtain ⟨iface, hresponse⟩ := h.valid entry hmem
  obtain ⟨henabled, hout⟩ := hready entry hmem iface hresponse.attached
  obtain ⟨hfresh, hsendable⟩ := h.waiting entry hmem
  have hcan : canSend env true entry iface := by
    simp [canSend, hsendable.isOk, hout]
  rw [process_entry hentry hresponse, completed_of_fresh hfresh, henabled, hcan]
  simp

lemma Sound.sent (hentry : slot.entry = some entry) :
    (slot.sent entry).Sound env.transportIdentity count := { h with
  perm := by
    have hperm := h.perm
    simp only [pending, entries, hentry, PathSlot.sent, toList_none, append_nil,
      append_assoc] at hperm ⊢
    exact hperm
  valid := h.valid.mono (entries_sent_subset entry)
  covered := fun hne => absurd rfl hne
  waiting := fun e he => h.waiting e (entries_sent_subset entry he) }

lemma Sound.process (hready : slot.Ready env) :
    (slot.process env true now).Sound env.transportIdentity count := by
  cases hentry : slot.entry with
  | none =>
    simp only [PathSlot.process, hentry]
    exact h
  | some entry =>
    rw [h.process_eq hready hentry]
    split_ifs
    · exact h
    · exact h.sent hentry

lemma Sound.mono : slot.Sound env.transportIdentity (count + 1) :=
  { h with numbered := fun r hr => (h.numbered r hr).trans (Nat.lt_succ_self count) }

end

lemma entries_eq_or (h : slot.held = none ∨ slot.entry = none) :
    slot.entries = (slot.entry.or slot.held).toList := by
  rcases h with hnone | hnone <;> simp [entries, hnone]

lemma Conserved.waits (h : slot.Conserved) (hroom : slot.held = none ∨ slot.entry = none)
    (hnew : entry.response ∉ slot.queued) : (slot.displaced entry).Conserved where
  perm := by
    have hperm := h.perm
    have hentries := entries_eq_or hroom
    simp only [pending] at hperm hentries ⊢
    rw [hentries] at hperm
    refine (Perm.append_right [entry.response] hperm).trans ?_
    rw [append_assoc]
    exact .append_left _ perm_append_comm
  nodup := by
    refine nodup_append.2 ⟨h.nodup, nodup_singleton _, ?_⟩
    rintro r hr _ hr' rfl
    rw [mem_singleton] at hr'
    exact hnew (hr' ▸ hr)

lemma mem_entries_waits (hroom : slot.held = none ∨ slot.entry = none) {e : PathAnnounceEntry}
    (he : e ∈ (slot.displaced entry).entries) : e = entry ∨ e ∈ slot.entries := by
  refine (mem_entries.1 he).imp (fun heq => (some.inj heq).symm) fun hor => ?_
  rw [entries_eq_or hroom]
  exact mem_toList.2 hor

section

variable (h : slot.Sound env.transportIdentity count)
include h

lemma Sound.waits
    (hroom : slot.held = none ∨ slot.entry = none) (hresponse : IsResponse entry iface)
    (hid : entry.id = count) (hfresh : entry.retries ≤ pathfinderR)
    (hsendable : Sendable env.transportIdentity entry.packet) :
    (slot.displaced entry).Sound env.transportIdentity (count + 1) where
  toConserved := by
    refine h.toConserved.waits hroom ?_
    intro hmem
    have hlt := h.numbered _ hmem
    rw [PathAnnounceEntry.response, hid] at hlt
    exact lt_irrefl _ hlt
  valid := by
    intro e he
    rcases mem_entries_waits hroom he with rfl | hmem
    · exact ⟨iface, hresponse⟩
    · exact h.valid e hmem
  covered := by
    rintro - ⟨⟩
  numbered := by
    intro r hr
    rcases mem_append.1 hr with hr | hr
    · exact (h.numbered r hr).trans (Nat.lt_succ_self count)
    · rw [mem_singleton.1 hr, PathAnnounceEntry.response, hid]
      exact Nat.lt_succ_self count
  waiting := by
    intro e he
    rcases mem_entries_waits hroom he with rfl | hmem
    · exact ⟨hfresh, hsendable⟩
    · exact h.waiting e hmem

lemma Sound.queue {attachedIface : ℕ} (hroomy : roomyQueue env attachedIface slot)
    (hsmooth : isFromLocalClient → (env.interfaces attachedIface).isEnabled ∧
      (env.interfaces attachedIface).allowsOutgoing ∧ sends) :
    (slot.queuePathResponseAnnounce env sends count now path attachedIface
      isFromLocalClient).1.Sound env.transportIdentity (count + 1) := by
  rcases queue_cases h.valid env sends count now path attachedIface isFromLocalClient with
    ⟨-, heq⟩ | ⟨_, _, _, heq⟩ | ⟨srcPkt, hsource, hother, heq⟩
  · rw [heq]
    exact h.mono
  · rw [heq]
    exact h.mono
  have hroom : slot.held = none ∨ slot.entry = none := by
    refine hroomy.1.imp_right fun hretry => ?_
    by_contra hne
    obtain ⟨prev, hprev⟩ := ne_none_iff_exists'.1 hne
    exact hother prev hprev (hretry prev hprev)
  have hsendable := hroomy.2 srcPkt hsource
  generalize hnew : PathAnnounceEntry.new count now path attachedIface isFromLocalClient srcPkt =
    entry at heq
  have hresponse : IsResponse entry attachedIface := by
    subst hnew
    exact ⟨rfl, rfl⟩
  have hwaits := h.waits hroom hresponse (by subst hnew; rfl) (by subst hnew; exact le_rfl)
    (by subst hnew; exact hsendable)
  rw [heq, place_entry env sends isFromLocalClient _ hresponse]
  cases isFromLocalClient with
  | false => exact hwaits
  | true =>
    obtain ⟨henabled, hout, hsends⟩ := hsmooth rfl
    have hcan : canSend env sends entry attachedIface := by
      have hok : (entry.buildPathResponseWire env.transportIdentity).isOk :=
        Sendable.isOk (by subst hnew; exact hsendable)
      simp [canSend, hok, hout, hsends]
    simp only [henabled, hcan]
    exact hwaits.sent rfl

lemma Sound.finished (hentry : slot.entry = none) :
    slot.pending = [] ∧ slot.emitted.Perm slot.queued := by
  have hheld : slot.held = none := by
    by_contra hne
    exact h.covered hne hentry
  have hpending : slot.pending = [] := by
    simp [pending, entries, hentry, hheld]
  refine ⟨hpending, ?_⟩
  have hperm := h.perm
  rw [hpending, append_nil] at hperm
  exact hperm.symm

/-- **Two passes send everything.** -/
lemma Sound.drained (hready : slot.Ready env) {now₁ now₂ : ℕ}
    (hdue : ∀ e ∈ slot.entries, e.retransmitTimeout ≤ now₁ ∧ e.retransmitTimeout ≤ now₂) :
    ((slot.process env true now₁).process env true now₂).pending = [] ∧
      ((slot.process env true now₁).process env true now₂).emitted.Perm slot.queued := by
  cases hentry : slot.entry with
  | none =>
    have hsame now : slot.process env true now = slot := by
      simp [PathSlot.process, hentry]
    rw [hsame, hsame]
    exact h.finished hentry
  | some entry =>
    have hmem : entry ∈ slot.entries := by simp [entries, hentry]
    have hsound := h.sent hentry
    rw [h.process_eq hready hentry, if_neg (not_lt.2 (hdue entry hmem).1)]
    -- the held announce is next
    cases hheld : slot.held with
    | none =>
      have hsame : (slot.sent entry).process env true now₂ = slot.sent entry := by
        simp [PathSlot.process, PathSlot.sent, hheld]
      rw [hsame]
      exact hsound.finished hheld
    | some held =>
      have hmem' : held ∈ slot.entries := mem_entries.2 (.inr hheld)
      have hready' : (slot.sent entry).Ready env := by
        intro e he
        obtain rfl : held = e := by simpa [mem_entries, PathSlot.sent, hheld] using he
        exact hready held hmem'
      rw [hsound.process_eq hready' hheld, if_neg (not_lt.2 (hdue held hmem').2)]
      exact (hsound.sent hheld).finished rfl

end

end PathSlot

/-! ## All destinations -/

structure AnnounceTables extends SendState where
  slots : Bytes → PathSlot
  count : ℕ

/-- What happens to the tables.  An announce is cached, or dropped from the cache.  `sends` says of
each destination whether its interface accepts what it is given, if it is given something. -/
inductive AnnounceEvent where
  | cacheAnnouncePacket (dest : Bytes) (pkt : Option AnnouncePacket)
  | queuePathResponseAnnounce (dest : Bytes) (path : Path) (attachedIface : ℕ)
      (isFromLocalClient : Bool) (now : ℕ) (sends : Bool)
  | processAnnounceTable (now : ℕ) (sends : Bytes → Bool)
  | setInterface (iface : ℕ) (state : NetworkInterface)
  | unregisterInterface (iface : ℕ)

namespace AnnounceTables

section

variable (s : AnnounceTables)

def modify (dest : Bytes) (f : PathSlot → PathSlot) : AnnounceTables :=
  { s with slots := Function.update s.slots dest (f (s.slots dest)) }

/-- One event.  Calls and passes come one after another: `processAnnounceTable` gives the lock back
between marking the entries that are due and sending them, and what another call could do there is
left out. -/
def step : AnnounceEvent → AnnounceTables
  | .cacheAnnouncePacket dest pkt => s.modify dest fun slot => { slot with cached := pkt }
  | .queuePathResponseAnnounce dest path attachedIface isFromLocalClient now sends =>
    if dest.length ≠ truncatedHashLength then s
    else
      { s.modify dest fun slot =>
          (slot.queuePathResponseAnnounce s.toSendState sends s.count now path attachedIface
            isFromLocalClient).1 with
        count := s.count + 1 }
  | .processAnnounceTable now sends =>
    { s with slots := fun dest => (s.slots dest).process s.toSendState (sends dest) now }
  | .setInterface iface state => { s with interfaces := Function.update s.interfaces iface state }
  | .unregisterInterface iface => { s with slots := fun dest => (s.slots dest).invalidate iface }

def new (env : SendState) : AnnounceTables where
  toSendState := env
  slots _ := ⟨none, none, none, [], []⟩
  count := 0

def Valid : Prop := ∀ dest, (s.slots dest).Valid

def Covered : Prop := ∀ dest, (s.slots dest).Covered

def covers : AnnounceEvent → Prop
  | .queuePathResponseAnnounce dest _ attachedIface isFromLocalClient _ _ =>
    dest.length = truncatedHashLength →
      PathSlot.coversQueue s.toSendState attachedIface isFromLocalClient (s.slots dest)
  | .processAnnounceTable now _ =>
    ∀ dest, PathSlot.coversProcess s.toSendState now (s.slots dest)
  | .unregisterInterface iface => ∀ dest, PathSlot.coversInvalidate iface (s.slots dest)
  | .cacheAnnouncePacket _ _ => True
  | .setInterface _ _ => True

def Conserved : Prop := ∀ dest, (s.slots dest).Conserved

/-- The interfaces that are used are enabled and registered, and what is sent is accepted. -/
def smooth : AnnounceEvent → Prop
  | .queuePathResponseAnnounce _ _ attachedIface isFromLocalClient _ sends =>
    isFromLocalClient = true → (s.interfaces attachedIface).isEnabled = true ∧
      (s.interfaces attachedIface).allowsOutgoing = true ∧ sends = true
  | .processAnnounceTable _ sends =>
    ∀ dest, sends dest = true ∧ (s.slots dest).Ready s.toSendState
  | .unregisterInterface iface =>
    ∀ dest, ∀ e ∈ (s.slots dest).entries, e.references iface = false
  | .cacheAnnouncePacket _ _ => True
  | .setInterface _ _ => True

def roomy : AnnounceEvent → Prop
  | .queuePathResponseAnnounce dest _ attachedIface _ _ _ =>
    dest.length = truncatedHashLength →
      PathSlot.roomyQueue s.toSendState attachedIface (s.slots dest)
  | _ => True

/-- Two passes that come late enough send, of each destination, all that was accepted. -/
def Drains : Prop :=
  ∀ dest now₁ now₂, (s.slots dest).Ready s.toSendState →
    (∀ e ∈ (s.slots dest).entries, e.retransmitTimeout ≤ now₁ ∧ e.retransmitTimeout ≤ now₂) →
      ((Run.exec step s [.processAnnounceTable now₁ fun _ => true,
        .processAnnounceTable now₂ fun _ => true]).slots dest).emitted.Perm (s.slots dest).queued

end

/-! ### Runs -/

variable {s : AnnounceTables}

lemma forall_update {P : PathSlot → Prop} (h : ∀ dest, P (s.slots dest)) (dest : Bytes)
    (slot : PathSlot) : (∀ dest', P (Function.update s.slots dest slot dest')) ↔ P slot := by
  constructor
  · intro hall
    simpa using hall dest
  · intro hslot dest'
    by_cases heq : dest' = dest
    · subst heq
      simpa using hslot
    · simpa [Function.update_of_ne heq] using h dest'

lemma Valid.step (h : s.Valid) (e : AnnounceEvent) : (s.step e).Valid := by
  cases e with
  | cacheAnnouncePacket dest pkt =>
    exact (forall_update h dest _).2 (h dest)
  | queuePathResponseAnnounce dest path attachedIface isFromLocalClient now sends =>
    simp only [AnnounceTables.step]
    split_ifs
    · exact h
    · exact (forall_update h dest _).2 ((h dest).queue attachedIface)
  | processAnnounceTable now sends =>
    intro dest
    exact (h dest).process
  | setInterface iface state => exact h
  | unregisterInterface iface =>
    intro dest
    exact (h dest).invalidate iface

lemma covered_step (hvalid : s.Valid) (h : s.Covered) (e : AnnounceEvent) :
    (s.step e).Covered ↔ s.covers e := by
  cases e with
  | cacheAnnouncePacket dest pkt =>
    refine iff_of_true ?_ trivial
    exact (forall_update h dest _).2 (h dest)
  | queuePathResponseAnnounce dest path attachedIface isFromLocalClient now sends =>
    simp only [step, covers]
    by_cases hlength : dest.length = truncatedHashLength
    · rw [← PathSlot.covered_queue (hvalid dest) (h dest)]
      simp only [hlength, true_imp_iff]
      exact forall_update h dest _
    · rw [if_pos hlength]
      exact iff_of_true h fun heq => absurd heq hlength
  | processAnnounceTable now sends =>
    exact forall_congr' fun dest => PathSlot.covered_process (hvalid dest) (h dest)
  | setInterface iface state => exact iff_of_true h trivial
  | unregisterInterface iface =>
    exact forall_congr' fun dest => PathSlot.covered_invalidate (h dest) iface

def Sound (s : AnnounceTables) : Prop :=
  ∀ dest, (s.slots dest).Sound s.transportIdentity s.count

lemma Sound.step (h : s.Sound) {e : AnnounceEvent} (hsmooth : s.smooth e) (hroomy : s.roomy e) :
    (s.step e).Sound := by
  cases e with
  | cacheAnnouncePacket dest pkt =>
    exact (forall_update h dest _).2 { h dest with }
  | queuePathResponseAnnounce dest path attachedIface isFromLocalClient now sends =>
    simp only [AnnounceTables.step]
    split_ifs with hlength
    · exact h
    · rw [not_not] at hlength
      have hmono : ∀ dest, (s.slots dest).Sound s.transportIdentity (s.count + 1) := by
        intro dest
        exact (h dest).mono
      exact (forall_update hmono dest _).2 ((h dest).queue (hroomy hlength) hsmooth)
  | processAnnounceTable now sends =>
    intro dest
    obtain ⟨hsends, hready⟩ := hsmooth dest
    simp only [AnnounceTables.step, hsends]
    exact (h dest).process hready
  | setInterface iface state => exact h
  | unregisterInterface iface =>
    intro dest
    simp only [AnnounceTables.step, PathSlot.invalidate_eq_self (hsmooth dest)]
    exact h dest

/-- **Path responses.**  In every run, every held announce is covered by an entry of the table, in
every state, if and only if each step meets `covers`.  If in addition the interfaces are enabled and
registered and all sends succeed (`smooth`), and there is room for the responses (`roomy`), then
every response that was accepted has been sent once or waits, and two passes send those that
wait. -/
theorem responses_kept (env : SendState) (es : List AnnounceEvent) :
    (Run.Always step Covered (new env) es ↔ Run.Along step covers (new env) es) ∧
      (Run.Along step smooth (new env) es → Run.Along step roomy (new env) es →
        Run.Always step Conserved (new env) es ∧ Drains (Run.exec step (new env) es)) := by
  have hvalid : (new env).Valid := by
    rintro dest e ⟨⟩
  refine ⟨?_, ?_⟩
  · apply Run.always_iff_along (I := fun s => s.Valid ∧ s.Covered)
    · intro s h
      exact h.2
    · intro s e h hcovers
      exact ⟨h.1.step e, (covered_step h.1 h.2 e).2 hcovers⟩
    · intro s e h hcovers
      exact mt (covered_step h.1 h.2 e).1 hcovers
    · refine ⟨hvalid, ?_⟩
      intro dest hheld
      exact absurd rfl hheld
  · intro hsmooth hroomy
    have hsound : (new env).Sound := by
      intro dest
      refine ⟨⟨.refl _, nodup_nil⟩, hvalid dest, ?_, ?_, ?_⟩
      · intro hheld
        exact absurd rfl hheld
      · rintro r ⟨⟩
      · rintro e ⟨⟩
    have hall : Run.Always step Sound (new env) es := by
      refine Run.always_of_along ?_ hsound (Run.along_and hsmooth hroomy)
      intro s e h hstep
      exact h.step hstep.1 hstep.2
    refine ⟨hall.mono fun s h dest => (h dest).toConserved, ?_⟩
    intro dest now₁ now₂ hready hdue
    exact ((hall.last dest).drained hready hdue).2

/-! ### Three requests -/

def answering : SendState where
  transportIdentity := some (replicate 16 9)
  interfaces _ := ⟨"", true, true, false⟩

def dest : Bytes := replicate 16 7

def announced : AnnouncePacket where
  headerType := .headerType1
  packetType := .announce
  transportType := 0
  context := 0
  contextFlag := 0
  hops := 1
  destinationType := .single
  transportID := []
  destinationHash := dest
  data := [1, 2, 3]
  raw := []
  data_ne := by decide
  length_destinationHash := rfl

def requestFrom (iface : ℕ) : AnnounceEvent :=
  .queuePathResponseAnnounce dest ⟨dest, some 5, 1, [], none⟩ iface false 0 true

/-- Three interfaces ask before the first of them is answered; then there are passes for as many
responses. -/
def threeRequesters : List AnnounceEvent :=
  [.cacheAnnouncePacket dest (some announced), requestFrom 0, requestFrom 1, requestFrom 2,
    .processAnnounceTable (10 ^ 9) fun _ => true, .processAnnounceTable (2 * 10 ^ 9) fun _ => true,
    .processAnnounceTable (3 * 10 ^ 9) fun _ => true]

/-- Two interfaces ask, and the second of them is answered. -/
def twoRequesters : List AnnounceEvent :=
  [.cacheAnnouncePacket dest (some announced), requestFrom 0, requestFrom 1,
    .processAnnounceTable (10 ^ 9) fun _ => true]

/-- The response that was held waits in the table, and is sent next. -/
theorem twoRequesters_kept :
    let s := Run.exec step (new answering) twoRequesters
    Run.Always step Conserved (new answering) twoRequesters ∧ s.Drains ∧
      (s.slots dest).emitted = [(1, some 1)] ∧ (s.slots dest).pending = [(0, some 0)] := by
  have hready (slot : PathSlot) : slot.Ready answering := fun _ _ _ _ => ⟨rfl, rfl⟩
  have hsmooth : Run.Along step smooth (new answering) twoRequesters :=
    ⟨trivial, nofun, nofun, fun _ => ⟨rfl, hready _⟩, trivial⟩
  have hsendable : PathSlot.Sendable answering.transportIdentity announced :=
    ⟨_, rfl, rfl, by decide⟩
  have hroomy : Run.Along step roomy (new answering) twoRequesters := by
    refine ⟨trivial, fun _ => ⟨.inl rfl, ?_⟩, fun _ => ⟨.inl rfl, ?_⟩, trivial, trivial⟩
    all_goals
      rintro _ ⟨⟩
      exact hsendable
  obtain ⟨hconserved, hdrains⟩ := (responses_kept answering twoRequesters).2 hsmooth hroomy
  exact ⟨hconserved, hdrains, by decide +kernel, by decide +kernel⟩

def disabledRequester : List AnnounceEvent :=
  [.cacheAnnouncePacket dest (some announced), requestFrom 0, requestFrom 1,
    .setInterface 1 ⟨"", false, true, false⟩, .processAnnounceTable (10 ^ 9) fun _ => true]

/-- The first of the three responses is lost, although everything that is sent is accepted.  And the
first of the two is held with no entry in the table, so that it does not come back. -/
theorem threeRequesters_lost :
    ((Run.exec step (new answering) threeRequesters).slots dest).queued =
        [(0, some 0), (1, some 1), (2, some 2)] ∧
      ((Run.exec step (new answering) threeRequesters).slots dest).emitted =
        [(2, some 2), (1, some 1)] ∧
      ((Run.exec step (new answering) threeRequesters).slots dest).entry = none ∧
      ((Run.exec step (new answering) threeRequesters).slots dest).held = none ∧
      ((Run.exec step (new answering) disabledRequester).slots dest).held.isSome ∧
      ((Run.exec step (new answering) disabledRequester).slots dest).entry = none := by
  refine ⟨?_, ?_, ?_, ?_, ?_, ?_⟩ <;> decide +kernel

end AnnounceTables

end Reticulum

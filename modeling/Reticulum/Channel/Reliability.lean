import Reticulum.Channel.Send
import Reticulum.Link.Inbound

/-!
# Reliability of a channel across a lossy network

Two linked channels, and a network between them that keeps every packet and every proof ever sent.
Loss, duplication, delay and reordering are all the same here: which packet a run lets **arrive**,
and when.

An acknowledged message should have been handed to the receiving application, or wait in its ring
(`Reliable`).  The link proves a packet whatever its channel made of it, so the channel must not
turn it away: the body has to unpack, the packet has to be `InPhase`, and it must not overtake a
held copy of itself.  These suffice (**`reliable_of_accepted`**), and the sender's window does not
imply them (`lossyRun_not_reliable`).
-/

namespace Reticulum

open Channel.Constants Channel List Channel ChannelLink

/-- The two ends and the network between them.  `dispatched` is every envelope handed to the
receiving application so far, `proofs` every packet that was proved. -/
structure ChannelPair (M : Type) where
  sender : Sender M
  receiver : ChannelLink M
  dispatched : List (RxEnvelope (M × ℕ))
  proofs : List ℕ

/-- What happens to the pair: something happens to the sender; a copy of a transmitted packet
arrives; the receiving link handles the next packet in its queue; the gate of the link goes up, or
down; other code sets the status of the link and its session keys. -/
inductive PairEvent (M : Type) where
  | sender (e : SenderEvent M)
  | arrive (packet : ℕ)
  | process (attempt : Attempt)
  | raiseGate
  | markChannelReady
  | setStatus (status : LinkStatus) (hasSessionKeys : Bool)

namespace ChannelLink

variable {M : Type} {cipher : LinkCipher} {reg : Registry M} {attempt : Attempt}
  {l : ChannelLink M} {pkt : ChannelPacket}

/-- The bytes that a packet brings to `HandleInbound`, if it gets there: the link is active, its
gate is down, and the packet decrypts. -/
def opens (cipher : LinkCipher) (attempt : Attempt) (l : ChannelLink M) (pkt : ChannelPacket) :
    Option Bytes :=
  if (l.status = .active ∨ l.status = .stale) ∧ l.hasSessionKeys ∧ ¬ l.channelGate ∧
      attempt.admitted then (cipher.decrypt pkt.data).toOption
  else none

lemma processInbound_of_opens {plaintext : Bytes}
    (h : l.opens cipher attempt pkt = some plaintext) :
    let r := handleInbound (reg.tag pkt.id) l.channel plaintext
    processInbound cipher reg attempt l pkt =
      ⟨{ l with status := .active, channel := r.channel }, r.delivered, attempt.provable,
        r.result⟩ := by
  rw [opens] at h
  split_ifs at h with hc
  obtain ⟨hstatus, hkeys, hgate, hadm⟩ := hc
  have hdec : cipher.decrypt pkt.data = .ok plaintext := by
    cases hd : cipher.decrypt pkt.data with
    | error err => simp [hd, Except.toOption] at h
    | ok plain => simpa [hd, Except.toOption] using h
  obtain ⟨status, keys, gate, early, queue, channel⟩ := l
  simp only [Bool.not_eq_true] at hgate
  subst hkeys hgate
  rcases hstatus with rfl | rfl <;> simp [processInbound, handleChannelPacket, hadm, hdec]

/-- The channel did not see the packet: it is as before, nothing was handed on or proved, and the
packet is at most held back. -/
structure Missed (l : ChannelLink M) (pkt : ChannelPacket) (r : Handled M) : Prop where
  channel : r.link.channel = l.channel
  delivered : r.delivered = []
  not_proved : r.proved = false
  inboundQ : r.link.inboundQ = l.inboundQ
  early : ∀ q ∈ r.link.earlyChannel, q ∈ l.earlyChannel ∨ q = pkt

lemma missed_error (l : ChannelLink M) (pkt : ChannelPacket) (result : Except String Unit) :
    Missed l pkt ⟨l, [], false, result⟩ :=
  ⟨rfl, rfl, rfl, rfl, fun _ hq => .inl hq⟩

lemma missed_queueEarlyChannel (l : ChannelLink M) (pkt : ChannelPacket) :
    Missed l pkt ⟨l.queueEarlyChannel pkt, [], false, .ok ()⟩ := by
  rw [queueEarlyChannel]
  split_ifs
  · exact missed_error l pkt _
  · exact ⟨rfl, rfl, rfl, rfl, fun q hq => by simpa using hq⟩

lemma missed_handleChannelPacket (h : l.opens cipher attempt pkt = none)
    (hkeys : l.hasSessionKeys) : Missed l pkt (handleChannelPacket cipher reg attempt l pkt) := by
  rw [handleChannelPacket]
  split_ifs with hgate hclosed hactive hhandshake hadm
  · exact missed_error l pkt _
  · exact missed_queueEarlyChannel l pkt
  · exact missed_queueEarlyChannel l pkt
  · exact missed_error l pkt _
  · exact missed_error l pkt _
  · rw [Bool.not_eq_true, Bool.not_eq_false'] at hadm
    rw [opens, if_pos ⟨.inl (not_not.1 hactive), hkeys, hgate, hadm⟩] at h
    cases hdec : cipher.decrypt pkt.data with
    | error err => exact missed_error l pkt _
    | ok plain => simp [hdec, Except.toOption] at h

lemma missed_processInbound (h : l.opens cipher attempt pkt = none) :
    Missed l pkt (processInbound cipher reg attempt l pkt) := by
  rw [processInbound]
  by_cases hclosed : l.status = .closed
  · rw [if_pos hclosed]
    exact missed_error l pkt _
  · rw [if_neg hclosed]
    -- a stale link is promoted first, which changes nothing that `Missed` speaks of
    set l' := if l.status = .stale then { l with status := .active } else l with hl'
    have hsame : l'.channel = l.channel ∧ l'.inboundQ = l.inboundQ ∧
        l'.earlyChannel = l.earlyChannel ∧ l'.opens cipher attempt pkt = none := by
      rw [hl']
      split_ifs with hstale
      · simpa [opens, hstale] using h
      · exact ⟨rfl, rfl, rfl, h⟩
    obtain ⟨hchan, hqueue, hearly, hopens⟩ := hsame
    have hmissed : ∀ r, Missed l' pkt r → Missed l pkt r := fun r hr =>
      ⟨hr.channel.trans hchan, hr.delivered, hr.not_proved, hr.inboundQ.trans hqueue,
        fun q hq => hearly ▸ hr.early q hq⟩
    apply hmissed
    dsimp only
    split_ifs with hstatus hkeys
    · exact missed_error l' pkt _
    · exact missed_error l' pkt _
    · exact missed_handleChannelPacket hopens (by simpa using hkeys)

end ChannelLink

namespace ChannelPair

variable {M : Type}

def new (rtt : ℚ) (status : LinkStatus) : ChannelPair M :=
  ⟨.new rtt, ⟨status, true, false, [], [], .new rtt⟩, [], []⟩

variable (cipher : LinkCipher) (reg : Registry M)

def step [MessageBase M] (s : ChannelPair M) : PairEvent M → ChannelPair M
  | .sender (.delivered packet rtt) =>
    -- the callback runs for a packet whose proof arrived, and only proofs that were sent arrive
    if packet ∈ s.proofs then { s with sender := s.sender.step (.delivered packet rtt) } else s
  | .sender e => { s with sender := s.sender.step e }
  | .arrive packet =>
    match s.sender.wire[packet]? with
    | none => s
    | some raw =>
      { s with
        receiver :=
          { s.receiver with
            inboundQ := s.receiver.inboundQ ++ [⟨packet, cipher.encrypt packet raw⟩] } }
  | .process attempt =>
    match s.receiver.drainInbound cipher reg attempt with
    | none => s
    | some (pkt, r) =>
      { s with
        receiver := r.link
        dispatched := s.dispatched ++ r.delivered
        proofs := if r.proved then s.proofs ++ [pkt.id] else s.proofs }
  | .raiseGate => { s with receiver := { s.receiver with channelGate := true } }
  | .markChannelReady => { s with receiver := s.receiver.markChannelReady }
  | .setStatus status keys =>
    { s with receiver := { s.receiver with status, hasSessionKeys := keys } }

section

variable (s : ChannelPair M)

def Kept (packet : ℕ) : Prop :=
  (∃ e ∈ s.dispatched, e.message.2 = packet) ∨
    ∃ e ∈ s.receiver.channel.rxRing, e.message.2 = packet

/-- **The contract**: whatever left the sender's ring because it was proved was kept. -/
def Reliable : Prop := ∀ packet ∈ s.sender.acked, s.Kept packet

/-! ## When a packet is accepted -/

def Unpacks (data : Bytes) : Prop :=
  ∀ msgType sequence length rest,
    parseEnvelope data = some (msgType, sequence, length, rest) →
    ∃ msg, unpackMessage reg msgType sequence (rest.take length.toNat) = .ok msg

/-- The packet is at most the window ahead of the receiver, and less than a period minus the
window behind it. -/
def InPhase (packet : ℕ) : Prop :=
  packet ≤ s.dispatched.length + Constants.windowMax ∧
    s.dispatched.length + Constants.windowMax < packet + seqModulus

def Accepted : PairEvent M → Prop
  | .process attempt => ∀ pkt rest plaintext, s.receiver.inboundQ = pkt :: rest →
      s.receiver.opens cipher attempt pkt = some plaintext →
      Unpacks reg plaintext ∧ s.InPhase pkt.id ∧
        NoOvertaking (reg.tag pkt.id) ⟨s.receiver.channel, s.dispatched⟩ plaintext
  | _ => True

/-! ## The invariant -/

def Genuine (pkt : ChannelPacket) : Prop :=
  ∃ raw, s.sender.wire[pkt.id]? = some raw ∧ pkt.data = cipher.encrypt pkt.id raw

end

/-- **The invariant of the pair.**  The sender numbers its packets; whatever the receiver has
handed on as number `k`, or holds as number `k`, came in packet `k`; the queues hold genuine
packets; and what was proved was kept. -/
structure Inv (s : ChannelPair M) : Prop where
  numbered : s.sender.Numbered
  settled : RxSettled (fun k e => e.message.2 = k) s.dispatched s.receiver.channel
  queued : ∀ pkt ∈ s.receiver.inboundQ, s.Genuine cipher pkt
  early : ∀ pkt ∈ s.receiver.earlyChannel, s.Genuine cipher pkt
  proofs_kept : ∀ packet ∈ s.proofs, s.Kept packet
  acked_proved : ∀ packet ∈ s.sender.acked, packet ∈ s.proofs

variable {cipher reg} {s : ChannelPair M} {raw : Bytes}

lemma Inv.reliable (h : Inv cipher s) : Reliable s :=
  fun packet hp => h.proofs_kept packet (h.acked_proved packet hp)

lemma Inv.init (rtt : ℚ) (status : LinkStatus) : Inv cipher (new rtt status : ChannelPair M) where
  numbered := .init rtt
  settled := by
    constructor
    · simp only [new, new_rxRing, new_nextRxSequence]
      exact .init
    · simp [new]
  queued := by simp [new]
  early := by simp [new]
  proofs_kept := by simp [new]
  acked_proved := by simp [new, Sender.new]

lemma parseEnvelope_packEnvelope {msgType sequence : UInt16} {body : Bytes}
    (h : packEnvelope msgType sequence body = .ok raw) :
    ∃ length : UInt16, length.toNat = body.length ∧
      parseEnvelope raw = some (msgType, sequence, length, body) := by
  rw [packEnvelope] at h
  split_ifs at h with hbig
  rw [Except.ok.injEq] at h
  subst h
  refine ⟨.ofNat body.length, ?_, ?_⟩
  · rw [UInt16.toNat_ofNat', Nat.mod_eq_of_lt (by omega)]
  · simp only [Bytes.putUint16, cons_append, nil_append, parseEnvelope, Bytes.uint16_putUint16]

lemma unpackMessage_tag (packet : ℕ) {msgType sequence : UInt16} {body : Bytes} {msg : M}
    (h : unpackMessage reg msgType sequence body = .ok msg) :
    unpackMessage (reg.tag packet) msgType sequence body = .ok (msg, packet) := by
  simp only [unpackMessage, Registry.tag] at h ⊢
  cases hf : reg.factories msgType with
  | none =>
    simp only [hf, Except.ok.injEq] at h
    simp [h]
  | some ctor =>
    simp only [hf] at h
    simp [h, Except.map]

/-- What an accepted packet becomes: it is within the window and reaches the ring under its own
number, or it has been handed on long since. -/
lemma arrival_of_accepted (h : Inv cipher s) {packet : ℕ} (hraw : s.sender.wire[packet]? = some raw)
    (hunpack : Unpacks reg raw) (hphase : s.InPhase packet) :
    (packet < s.dispatched.length ∧
        arrival (reg.tag packet) s.receiver.channel raw = none) ∨
      ∃ env : RxEnvelope (M × ℕ), env.message.2 = packet ∧
        arrival (reg.tag packet) s.receiver.channel raw = some env ∧
        packet = s.dispatched.length +
          aheadRX s.receiver.channel.nextRxSequence env.sequence := by
  obtain ⟨msgType, body, hpack⟩ := h.numbered.wire_ok packet raw hraw
  obtain ⟨length, hlen, hparse⟩ := parseEnvelope_packEnvelope hpack
  obtain ⟨msg, hmsg⟩ := hunpack _ _ _ _ hparse
  have htag := unpackMessage_tag packet hmsg
  have hdist : aheadRX s.receiver.channel.nextRxSequence (.ofNat packet) =
      Serial.dist seqModulus (s.dispatched.length % seqModulus) (packet % seqModulus) := by
    rw [aheadRX, h.settled.inv.next_eq]
    rfl
  rw [arrival, hparse]
  simp only
  rw [if_neg (by omega)]
  by_cases hin : aheadRX s.receiver.channel.nextRxSequence (.ofNat packet) ≤
      Constants.windowMax
  · right
    rw [if_neg (mt (outsideWindow_iff _ _).1 (not_lt.2 hin)), htag]
    refine ⟨⟨.ofNat packet, (msg, packet)⟩, rfl, rfl, ?_⟩
    rw [hdist] at hin ⊢
    exact Serial.eq_add_dist (by decide) hphase.2 hphase.1 hin
  · left
    rw [if_pos ((outsideWindow_iff _ _).2 (not_le.1 hin))]
    refine ⟨?_, rfl⟩
    -- ahead of the receiver it would be within the window
    by_contra hge
    have hdist' := Serial.dist_of_le (N := seqModulus) (not_lt.1 hge)
      (lt_of_le_of_lt hphase.1 (Nat.add_lt_add_left (by decide) _))
    have := hphase.1
    omega

/-! ## Steps -/

section Steps

variable {s : ChannelPair M} {pkt : ChannelPacket}

lemma Genuine.of_wire {s' : ChannelPair M} (h : s.Genuine cipher pkt)
    (hwire : ∀ (k : ℕ) raw, s.sender.wire[k]? = some raw → s'.sender.wire[k]? = some raw) :
    s'.Genuine cipher pkt := by
  obtain ⟨raw, hraw, hdata⟩ := h
  exact ⟨raw, hwire _ _ hraw, hdata⟩

lemma wire_step [MessageBase M] (t : Sender M) (e : SenderEvent M) {k : ℕ}
    (h : t.wire[k]? = some raw) : (t.step e).wire[k]? = some raw := by
  have hstep := t.change_step e
  generalize t.step e = t' at hstep ⊢
  cases hstep with
  | transmitted hpend => exact Keyed.getElem?_concat.2 (.inl h)
  | _ => exact h

lemma acked_step [MessageBase M] (t : Sender M) (e : SenderEvent M) {p : ℕ}
    (h : p ∈ (t.step e).acked) : p ∈ t.acked ∨ ∃ rtt, e = .delivered p rtt := by
  have hstep := t.change_step e
  generalize t.step e = t' at hstep h
  cases hstep with
  | delivered packet rtt =>
    split_ifs at h with hany
    · rcases mem_append.1 h with h | h
      · exact .inl h
      · rw [mem_singleton.1 h]
        exact .inr ⟨rtt, rfl⟩
    · exact .inl h
  | _ => exact .inl h

lemma Inv.sender [MessageBase M] (h : Inv cipher s) (e : SenderEvent M)
    (hproved : ∀ p rtt, e = .delivered p rtt → p ∈ s.proofs) :
    Inv cipher { s with sender := s.sender.step e } := { h with
  numbered := h.numbered.step e
  queued := fun pkt hp => (h.queued pkt hp).of_wire fun _ _ hk => wire_step _ e hk
  early := fun pkt hp => (h.early pkt hp).of_wire fun _ _ hk => wire_step _ e hk
  acked_proved := fun p hp => by
    rcases acked_step _ e hp with hp | ⟨rtt, rfl⟩
    · exact h.acked_proved p hp
    · exact hproved p rtt rfl }

lemma Inv.missed (h : Inv cipher s) {rest : List ChannelPacket}
    (hq : s.receiver.inboundQ = pkt :: rest) {r : Handled M}
    (hr : Missed { s.receiver with inboundQ := rest } pkt r) :
    Inv cipher ⟨s.sender, r.link, s.dispatched ++ r.delivered,
      if r.proved then s.proofs ++ [pkt.id] else s.proofs⟩ := by
  have hhead : s.Genuine cipher pkt := h.queued pkt (by rw [hq]; exact mem_cons_self)
  obtain ⟨hchan, hdel, hproved, hqueue, hearly⟩ := hr
  rw [hdel, hproved, append_nil]
  constructor
  · exact h.numbered
  · simpa only [hchan] using h.settled
  · intro q hmem
    simp only [hqueue] at hmem
    exact h.queued q (by rw [hq]; exact mem_cons_of_mem _ hmem)
  · intro q hmem
    rcases hearly q hmem with hmem | rfl
    · exact h.early q hmem
    · exact hhead
  · intro p hp
    simpa [Kept, hchan] using h.proofs_kept p hp
  · exact h.acked_proved

/-- What the channel of the receiver does with a packet that it sees and accepts: it stays settled,
it forgets nothing, and it has the packet, whether this was handed on before, is held already or is
new. -/
lemma settled_of_accepted (h : Inv cipher s) (hraw : s.sender.wire[pkt.id]? = some raw)
    (hunpack : Unpacks reg raw) (hphase : s.InPhase pkt.id)
    (hover : NoOvertaking (reg.tag pkt.id) ⟨s.receiver.channel, s.dispatched⟩ raw)
    {r : Inbound (M × ℕ) ℕ} (hr : r = handleInbound (reg.tag pkt.id) s.receiver.channel raw) :
    RxSettled (fun k e => e.message.2 = k) (s.dispatched ++ r.delivered) r.channel ∧
      (∀ e ∈ s.receiver.channel.rxRing, e ∈ r.delivered ++ r.channel.rxRing) ∧
      ∃ e ∈ (s.dispatched ++ r.delivered) ++ r.channel.rxRing, e.message.2 = pkt.id := by
  rcases arrival_of_accepted h hraw hunpack hphase with ⟨hold, harr⟩ | ⟨env, htag, harr, hnum⟩
  · obtain ⟨hc, hd⟩ := handleInbound_of_arrival_none harr
    have hget := getElem?_eq_getElem hold
    refine ⟨by simpa [hr, hc, hd] using h.settled, fun e he => by simpa [hr, hc, hd] using he,
      s.dispatched[pkt.id], ?_, (h.settled.inv.done_ok _ _ hget).2⟩
    simp
  · obtain ⟨hw, heq⟩ := handleInbound_of_arrival harr
    have hq : env.message.2 = s.dispatched.length +
        aheadRX s.receiver.channel.nextRxSequence env.sequence := htag.trans hnum
    obtain ⟨hset, hforget, e, he, hseq, hcase⟩ := h.settled.deliver hw (hover env harr) hq
    rw [← heq, ← hr] at hset hforget he
    refine ⟨hset, hforget, e, ?_, ?_⟩
    · rw [append_assoc]
      exact mem_append_right _ he
    · rcases hcase with rfl | hring
      · exact htag
      · rw [h.settled.inv.ring_ok e hring, hseq, ← hnum]

/-- **The receiving link handles a packet that its channel sees and accepts.**  It is kept
afterwards, so proving it is right. -/
lemma Inv.accepted (h : Inv cipher s) {l : ChannelLink M} (hraw : s.sender.wire[pkt.id]? = some raw)
    (hunpack : Unpacks reg raw) (hphase : s.InPhase pkt.id)
    (hover : NoOvertaking (reg.tag pkt.id) ⟨s.receiver.channel, s.dispatched⟩ raw) (proved : Bool)
    (hqueued : ∀ q ∈ l.inboundQ, s.Genuine cipher q)
    (hearly : ∀ q ∈ l.earlyChannel, s.Genuine cipher q)
    (hchan : l.channel = (handleInbound (reg.tag pkt.id) s.receiver.channel raw).channel) :
    Inv cipher ⟨s.sender, l,
      s.dispatched ++ (handleInbound (reg.tag pkt.id) s.receiver.channel raw).delivered,
      if proved then s.proofs ++ [pkt.id] else s.proofs⟩ := by
  set r := handleInbound (reg.tag pkt.id) s.receiver.channel raw with hr
  obtain ⟨hsettled, hforget, hkept⟩ := settled_of_accepted h hraw hunpack hphase hover hr
  have hold : ∀ p, s.Kept p → (⟨s.sender, l, s.dispatched ++ r.delivered,
      if proved then s.proofs ++ [pkt.id] else s.proofs⟩ : ChannelPair M).Kept p := by
    rintro p (⟨e, he, hp⟩ | ⟨e, he, hp⟩)
    · exact .inl ⟨e, mem_append_left _ he, hp⟩
    · rcases mem_append.1 (hforget e he) with he | he
      · exact .inl ⟨e, mem_append_right _ he, hp⟩
      · exact .inr ⟨e, by rw [hchan]; exact he, hp⟩
  constructor
  · exact h.numbered
  · simpa only [hchan] using hsettled
  · exact hqueued
  · exact hearly
  · intro p hp
    cases proved with
    | false => exact hold p (h.proofs_kept p hp)
    | true =>
      rcases mem_append.1 hp with hp | hp
      · exact hold p (h.proofs_kept p hp)
      · rw [mem_singleton.1 hp]
        obtain ⟨e, he, htag⟩ := hkept
        rcases mem_append.1 he with he | he
        · exact .inl ⟨e, he, htag⟩
        · exact .inr ⟨e, by rw [hchan]; exact he, htag⟩
  · intro p hp
    cases proved with
    | false => exact h.acked_proved p hp
    | true => exact mem_append_left _ (h.acked_proved p hp)

/-- **Every step keeps the invariant**, if no packet is turned away in it. -/
lemma Inv.step [MessageBase M] (h : Inv cipher s) {e : PairEvent M}
    (he : Accepted cipher reg s e) : Inv cipher (step cipher reg s e) := by
  cases e with
  | sender e =>
    cases e with
    | delivered packet rtt =>
      rw [ChannelPair.step]
      split_ifs with hproved
      · refine h.sender _ ?_
        intro p rtt' heq
        obtain ⟨rfl, -⟩ := SenderEvent.delivered.inj heq
        exact hproved
      · exact h
    | send o msg | linkSend transmitted | emplace
    | timeout packet resent => exact h.sender _ fun p rtt heq => by cases heq
  | arrive packet =>
    rw [ChannelPair.step]
    cases hraw : s.sender.wire[packet]? with
    | none => exact h
    | some raw =>
      refine { h with queued := fun pkt hp => ?_ }
      rcases mem_append.1 hp with hp | hp
      · exact h.queued pkt hp
      · rw [mem_singleton.1 hp]
        exact ⟨raw, hraw, rfl⟩
  | process attempt =>
    rw [ChannelPair.step, drainInbound]
    cases hq : s.receiver.inboundQ with
    | nil => exact h
    | cons pkt rest =>
      have hopens : ({ s.receiver with inboundQ := rest } : ChannelLink M).opens cipher attempt pkt
          = s.receiver.opens cipher attempt pkt := rfl
      cases hplain : s.receiver.opens cipher attempt pkt with
      | none => exact h.missed hq (missed_processInbound (hopens.trans hplain))
      | some plaintext =>
        obtain ⟨raw, hraw, hdata⟩ := h.queued pkt (by rw [hq]; exact mem_cons_self)
        -- the packet is genuine, so what it decrypts to is what was sent
        obtain rfl : raw = plaintext := by
          simp only [opens, hdata, cipher.decrypt_encrypt, Except.toOption] at hplain
          split_ifs at hplain
          simpa using hplain
        obtain ⟨hunpack, hphase, hover⟩ := he pkt rest raw hq hplain
        simp only [processInbound_of_opens (hopens.trans hplain)]
        refine h.accepted hraw hunpack hphase hover attempt.provable (fun q hmem => ?_) h.early rfl
        exact h.queued q (by rw [hq]; exact mem_cons_of_mem _ hmem)
  | raiseGate | setStatus status keys =>
    exact { h with }
  | markChannelReady =>
    refine { h with queued := fun pkt hp => ?_, early := ?_ }
    · exact (mem_append.1 hp).elim (h.early pkt) (h.queued pkt)
    · simp [ChannelPair.step, markChannelReady]

end Steps

/-- **Channel reliability.**  In every run of the pair, over a network that loses, duplicates,
delays and reorders at will, in which the receiving channel turns no packet away, an acknowledged
message has been handed to the application or is held for it, in every state of the run. -/
theorem reliable_of_accepted [MessageBase M] (cipher : LinkCipher) (reg : Registry M) (rtt : ℚ)
    (status : LinkStatus) (events : List (PairEvent M))
    (h : Run.Along (step cipher reg) (Accepted cipher reg) (new rtt status) events) :
    Run.Always (step cipher reg) Reliable (new rtt status) events :=
  (Run.always_of_along (I := Inv cipher) (fun _ _ hs he => hs.step he)
    (.init rtt status) h).mono fun _ hs => hs.reliable

/-! ## Running ahead of a lost packet -/

def plainCipher : LinkCipher := ⟨fun _ b => b, .ok, fun _ _ => rfl⟩

def sendOne : List (PairEvent GenericMessage) :=
  [.sender (.send ⟨2, none, 0⟩ ⟨1, [], 0⟩), .sender (.linkSend true), .sender .emplace]

def sendAndProve (packet : ℕ) : List (PairEvent GenericMessage) :=
  sendOne ++ [.arrive packet, .process ⟨true, true⟩, .sender (.delivered packet 0)]

@[irreducible] def lossyRun (n : ℕ) : List (PairEvent GenericMessage) :=
  sendOne ++ (range n).flatMap fun i => sendAndProve (i + 1)

lemma accepted_first {s : ChannelPair GenericMessage} (hdispatched : s.dispatched = [])
    (hring : s.receiver.channel.rxRing = []) (data : Bytes) (hq : s.receiver.inboundQ = [⟨0, data⟩])
    (attempt : Attempt) : Accepted plainCipher genericRegistry s (.process attempt) := by
  intro pkt rest plaintext hqueue hopens
  rw [hq] at hqueue
  obtain ⟨rfl, rfl⟩ := cons.inj hqueue
  refine ⟨fun msgType sequence length rest _ => ⟨_, rfl⟩, ?_, fun env _ => ?_⟩
  · rw [InPhase, hdispatched]
    exact ⟨Nat.zero_le _, by simp [Constants.windowMax, windowMaxFast, seqModulus, seqMax]⟩
  · rw [hring]
    rfl

/-- One message that is sent, proved and acknowledged. -/
theorem reliable_sendAndProve :
    Run.Always (step plainCipher genericRegistry) Reliable
      (new 0 .active : ChannelPair GenericMessage) (sendAndProve 0) := by
  refine reliable_of_accepted plainCipher genericRegistry 0 .active _ ?_
  refine ⟨trivial, trivial, trivial, trivial, ?_, trivial, trivial⟩
  exact accepted_first (by decide +kernel) (by decide +kernel) [0, 1, 0, 0, 0, 0]
    (by decide +kernel) _

def discarded (s : ChannelPair M) (packet : ℕ) : Bool :=
  decide (packet ∈ s.sender.acked) && s.dispatched.all (·.message.2 ≠ packet) &&
    s.receiver.channel.rxRing.all (·.message.2 ≠ packet)

lemma not_reliable_of_discarded {packet : ℕ} (h : s.discarded packet) : ¬ Reliable s := by
  simp only [discarded, Bool.and_eq_true, decide_eq_true_eq, all_eq_true] at h
  obtain ⟨⟨hacked, hdispatched⟩, hring⟩ := h
  intro hrel
  rcases hrel packet hacked with ⟨e, he, htag⟩ | ⟨e, he, htag⟩
  · exact hdispatched e he htag
  · exact hring e he htag

/-- While packet 0 is lost, packet 49 is turned away as too far ahead, proved all the same, and
acknowledged: it is gone. -/
theorem lossyRun_not_reliable :
    ¬ Run.Always (step plainCipher genericRegistry) Reliable
      (new 0 .active : ChannelPair GenericMessage) (lossyRun 49) := by
  intro h
  have hgone : (Run.exec (step plainCipher genericRegistry)
      (new 0 .active) (lossyRun 49)).discarded 49 = true := by
    decide +kernel
  exact not_reliable_of_discarded hgone h.last

end ChannelPair

end Reticulum

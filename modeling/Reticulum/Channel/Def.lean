import Mathlib.Algebra.Order.Ring.Rat
import Reticulum.Core.Bytes

/-!
# The channel

A **channel** carries messages over an established link (`pkg/channel`), each in an envelope with a
16-bit sequence number.  The sending side keeps the envelopes that have not been proved yet in
`txRing` and resends them on a timeout; the receiving side keeps those that arrived early in
`rxRing` and hands messages on strictly in order.

`Channel.reserve`, `Channel.commit`, `Channel.rewind` are the three stretches of `Send`: the lock is
not held across the call to the link, so timeouts and proofs can fall between them.  A Go pointer to
a transmitted packet is an element of the type `P`.
-/

namespace Reticulum

/-! ## Constants -/

namespace Channel.Constants

def windowInitial : ℕ := 2
def windowMinSlow : ℕ := 2
def windowMinMedium : ℕ := 5
def windowMinFast : ℕ := 16
def windowMaxSlow : ℕ := 5
def windowMaxMedium : ℕ := 12
def windowMaxFast : ℕ := 48
def windowMax : ℕ := windowMaxFast
def windowFlexibility : ℕ := 4

def rttFast : ℚ := 18 / 100
def rttMedium : ℚ := 75 / 100
def rttSlow : ℚ := 145 / 100

def seqMax : ℕ := 0xFFFF
def seqModulus : ℕ := seqMax + 1

def fastRateThreshold : ℕ := 10
def defaultMaxTries : ℕ := 5
def defaultOutletMDU : ℕ := 500

end Channel.Constants

open Channel.Constants

def errLinkNotReady : String := "link not ready"
def errTooBig : String := "channel message too big"

/-! ## Messages, envelopes and the channel state -/

class MessageBase (M : Type) where
  pack : M → Except String Bytes
  getType : M → UInt16

structure GenericMessage where
  type : UInt16
  data : Bytes
  seq : UInt16
deriving DecidableEq

instance : MessageBase GenericMessage where
  pack g := .ok g.data
  getType g := g.type

structure Envelope (M P : Type) where
  sequence : UInt16
  message : M
  raw : Bytes
  packet : P
  tries : ℕ

structure RxEnvelope (M : Type) where
  sequence : UInt16
  message : M
deriving DecidableEq

structure Channel (M P : Type) where
  txRing : List (Envelope M P)
  rxRing : List (RxEnvelope M)
  window : ℕ
  windowMax : ℕ
  windowMin : ℕ
  windowFlexibility : ℕ
  fastRateRounds : ℕ
  mediumRateRounds : ℕ
  nextSequence : UInt16
  nextRxSequence : UInt16
  maxTries : ℕ

/-- The link as the channel sees it: its status byte, the MDU it reports (if it reports one at
all) and its round-trip time. -/
structure Outlet where
  status : UInt8
  mdu : Option ℤ
  rtt : ℚ

/-- What the application has installed: message constructors by type, how the interface type
holds a `GenericMessage`, and the message handlers in order, a missing one being `none`. -/
structure Registry (M : Type) where
  factories : UInt16 → Option (Bytes → Except String M)
  generic : GenericMessage → M
  messageHandlers : List (Option (M → Bool))

def nextSeq (s : UInt16) : UInt16 := .ofNat ((s.toNat + 1) % seqModulus)

variable {M P : Type}

namespace Channel

variable (c : Channel M P)

def new (rtt : ℚ) : Channel M P :=
  let c : Channel M P :=
    { txRing := [], rxRing := [], window := windowInitial, windowMax := windowMaxSlow,
      windowMin := windowMinSlow, windowFlexibility := Constants.windowFlexibility,
      fastRateRounds := 0, mediumRateRounds := 0, nextSequence := 0, nextRxSequence := 0,
      maxTries := defaultMaxTries }
  if rttSlow < rtt then
    { c with window := 1, windowMax := 1, windowMin := 1, windowFlexibility := 1 }
  else c

/-! ## Sending -/

/-- Both the transport's and the link's own code for an active link are accepted. -/
def outletReady (status : UInt8) : Bool := status == 1 || status == 2

def outletMDU (o : Outlet) : ℕ :=
  match o.mdu with
  | some n => if 0 < n then n.toNat else defaultOutletMDU
  | none => defaultOutletMDU

def isReadyToSend (o : Outlet) (c : Channel M P) : Bool :=
  outletReady o.status && decide (c.txRing.length < c.window)

/-- The wire form of an envelope: type, sequence and body length, big endian, then the body. -/
def packEnvelope (msgType sequence : UInt16) (body : Bytes) : Except String Bytes :=
  if 0xffff < body.length then
    .error ("channel: message body too large (" ++ toString body.length ++ ")")
  else
    .ok (.putUint16 msgType ++ .putUint16 sequence ++
      .putUint16 (.ofNat body.length) ++ body)

/-- A sequence number taken for a message whose bytes are about to be handed to the link. -/
structure Reservation (M : Type) where
  sequence : UInt16
  message : M
  raw : Bytes

/-- `Send` up to its call of the link: check the window, pack the message, and take the next
sequence number. -/
def reserve [MessageBase M] (o : Outlet) (c : Channel M P) (msg : M) :
    Except String (Reservation M × Channel M P) := do
  if !isReadyToSend o c then
    .error errLinkNotReady
  let body ← MessageBase.pack msg
  let raw ← packEnvelope (MessageBase.getType msg) c.nextSequence body
  if outletMDU o < raw.length then
    .error errTooBig
  .ok (⟨c.nextSequence, msg, raw⟩, { c with nextSequence := nextSeq c.nextSequence })

def commit (r : Reservation M) (packet : P) : Channel M P :=
  { c with txRing := c.txRing ++ [{ r with packet := packet, tries := 1 }] }

def rewind (r : Reservation M) : Channel M P :=
  { c with nextSequence := r.sequence }

/-! ## The send window -/

def shrinkWindowOnTimeout : Channel M P :=
  { c with
    window := if c.windowMin < c.window then c.window - 1 else c.window
    windowMax :=
      if c.windowMin + c.windowFlexibility < c.windowMax then c.windowMax - 1 else c.windowMax }

def adjustWindowOnDelivered (rtt : ℚ) : Channel M P :=
  let c := if c.window < c.windowMax then { c with window := c.window + 1 } else c
  if rtt = 0 then c
  else if rttFast < rtt then
    let c := { c with fastRateRounds := 0 }
    if rttMedium < rtt then { c with mediumRateRounds := 0 }
    else
      let c := { c with mediumRateRounds := c.mediumRateRounds + 1 }
      if c.windowMax < windowMaxMedium ∧ c.mediumRateRounds = fastRateThreshold then
        { c with windowMax := windowMaxMedium, windowMin := windowMinMedium }
      else c
  else
    let c := { c with fastRateRounds := c.fastRateRounds + 1 }
    if c.windowMax < windowMaxFast ∧ c.fastRateRounds = fastRateThreshold then
      { c with windowMax := windowMaxFast, windowMin := windowMinFast }
    else c

/-! ## The callbacks of a transmitted packet -/

section Callbacks

variable [DecidableEq P]

def dropPacket (packet : P) (ring : List (Envelope M P)) : List (Envelope M P) :=
  ring.eraseP (·.packet = packet)

def countTry (packet : P) (ring : List (Envelope M P)) : List (Envelope M P) :=
  ring.replaceF fun env => if env.packet = packet then some { env with tries := env.tries + 1 }
    else none

/-- The timeout of `packet`.  `resent` is whether the link's `Resend` succeeds, if it is called:
an envelope out of tries, and one that cannot be resent, is removed. -/
def handleTimeout (packet : P) (resent : Bool) : Channel M P :=
  match c.txRing.find? (·.packet = packet) with
  | none => c
  | some env =>
    let c := c.shrinkWindowOnTimeout
    if c.maxTries ≤ env.tries then { c with txRing := dropPacket packet c.txRing }
    else if resent then { c with txRing := countTry packet c.txRing }
    else { c with txRing := dropPacket packet c.txRing }

def handleDelivered (rtt : ℚ) (packet : P) : Channel M P :=
  match c.txRing.find? (·.packet = packet) with
  | none => c
  | some _ => ({ c with txRing := dropPacket packet c.txRing }).adjustWindowOnDelivered rtt

end Callbacks

/-! ## Receiving -/

/-- Whether `seq` is behind `next` and outside the wrap window. -/
def staleRXSequence (seq next : UInt16) : Bool :=
  if next ≤ seq then false
  else
    let windowOverflow := (next.toNat + Constants.windowMax) % seqModulus
    if windowOverflow < next.toNat then decide (windowOverflow < seq.toNat) else true

/-- Whether `seq` is more than the window ahead of `next`; the comparison is not modular. -/
def farAheadRXSequence (seq next : UInt16) : Bool :=
  decide (next.toNat + Constants.windowMax < seq.toNat)

/-- The scan of `emplaceRXLocked`: `none` if an entry with the same sequence number is met, else
the ring with `env` inserted before the first entry it belongs in front of, or at the end. -/
def emplaceRX (next : UInt16) (env : RxEnvelope M) :
    List (RxEnvelope M) → Option (List (RxEnvelope M))
  | [] => some [env]
  | existing :: rest =>
    if env.sequence = existing.sequence then none
    else if env.sequence < existing.sequence ∧
        (next.toNat : ℤ) - env.sequence.toNat ≤ (seqMax : ℤ) / 2 then
      some (env :: existing :: rest)
    else (emplaceRX next env rest).map (existing :: ·)

/-- What a drain leaves: the envelopes taken out, the next expected sequence, the ring. -/
structure Drained (M : Type) where
  out : List (RxEnvelope M)
  next : UInt16
  ring : List (RxEnvelope M)

/-- The loop of `drainRXLocked`: take out the entry with the expected sequence number and expect
the next one, until no entry has it.  Each round removes an entry, so the number of rounds is
bounded by the length of the ring. -/
def drainLoop : ℕ → UInt16 → List (RxEnvelope M) → Drained M
  | 0, next, ring => ⟨[], next, ring⟩
  | n + 1, next, ring =>
    match ring.find? (·.sequence = next) with
    | none => ⟨[], next, ring⟩
    | some env =>
      let d := drainLoop n (nextSeq next) (ring.eraseP (·.sequence = next))
      { d with out := env :: d.out }

def drainRX (next : UInt16) (ring : List (RxEnvelope M)) : Drained M :=
  drainLoop ring.length next ring

/-- The outcome of one inbound packet: the channel after it, the envelopes handed to the message
handlers, in order, and the error returned. -/
structure Inbound (M P : Type) where
  channel : Channel M P
  delivered : List (RxEnvelope M)
  result : Except String Unit

def parseEnvelope : Bytes → Option (UInt16 × UInt16 × UInt16 × Bytes)
  | t₁ :: t₀ :: s₁ :: s₀ :: l₁ :: l₀ :: rest =>
    some (Bytes.uint16 t₁ t₀, Bytes.uint16 s₁ s₀, Bytes.uint16 l₁ l₀, rest)
  | _ => none

/-- The message a body decodes to: by the registered constructor, or as a `GenericMessage`. -/
def unpackMessage (reg : Registry M) (msgType sequence : UInt16) (msgData : Bytes) :
    Except String M :=
  match reg.factories msgType with
  | some ctor => ctor msgData
  | none => .ok (reg.generic ⟨msgType, msgData, sequence⟩)

/-- The stretch of `HandleInbound` under the dispatch lock: check the sequence number once more,
put the envelope into the ring, and take out what is due. -/
def deliver (env : RxEnvelope M) : Inbound M P :=
  if staleRXSequence env.sequence c.nextRxSequence ||
      farAheadRXSequence env.sequence c.nextRxSequence then ⟨c, [], .ok ()⟩
  else
    match emplaceRX c.nextRxSequence env c.rxRing with
    | none => ⟨c, [], .ok ()⟩
    | some ring =>
      let d := drainRX c.nextRxSequence ring
      ⟨{ c with rxRing := d.ring, nextRxSequence := d.next }, d.out, .ok ()⟩

def handleInbound (reg : Registry M) (c : Channel M P) (data : Bytes) : Inbound M P :=
  match parseEnvelope data with
  | none => ⟨c, [], .error "channel packet too short"⟩
  | some (msgType, sequence, length, rest) =>
    if rest.length < length.toNat then ⟨c, [], .error "channel packet incomplete"⟩
    else if staleRXSequence sequence c.nextRxSequence ||
        farAheadRXSequence sequence c.nextRxSequence then ⟨c, [], .ok ()⟩
    else
      match unpackMessage reg msgType sequence (rest.take length.toNat) with
      | .error err => ⟨c, [], .error err⟩
      | .ok msg => deliver c ⟨sequence, msg⟩

end Channel

end Reticulum

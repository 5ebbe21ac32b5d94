import Reticulum.Channel.Reliability

/-!
# Byte streams over a channel

A **stream** carries bytes over a channel (`pkg/buffer`).  The writer cuts what it is given into
stream messages and compresses them where that pays; the reader collects the bytes with its stream
ID and hands them out in whatever portions it is asked for.  The channel between them is a queue
here.

The reader holds at most `maxReaderBufferBytes` unread bytes.  A message that would exceed this is
dropped, and the messages after it are not.  This is exactly what loses bytes:
**`conserved_iff_fits`**, **`read_prefix_of_fits`**, `overfull_loses_ones`.
-/

namespace Reticulum

variable {p : Bytes} {n : ℕ}

open List

/-! ## Constants -/

namespace Stream.Constants

def streamIDMax : UInt16 := 0x3fff
def maxChunkLen : ℕ := 16 * 1024
def compressTries : ℕ := 4

def streamHeaderEOF : UInt16 := 0x8000
def streamHeaderCompressed : UInt16 := 0x4000

def streamDataMessageType : UInt16 := 0xff00

def streamHeaderSize : ℕ := 2

def compressThreshold : ℕ := 32

def maxReaderBufferBytes : ℕ := 8 * 2 ^ 20

def channelHeaderSize : ℕ := 6

end Stream.Constants

open Stream.Constants

def errShortBuffer : String := "short buffer"
def errEOF : String := "EOF"

/-! ## Messages -/

structure StreamDataMessage where
  streamID : UInt16
  data : Bytes
  eof : Bool
  compressed : Bool
deriving DecidableEq

namespace StreamDataMessage

variable (m : StreamDataMessage)

def header : UInt16 :=
  let headerVal := m.streamID &&& streamIDMax
  let headerVal := if m.eof then headerVal ||| streamHeaderEOF else headerVal
  if m.compressed then headerVal ||| streamHeaderCompressed else headerVal

def body : Bytes := .putUint16 m.header ++ m.data

def pack : Except String Bytes := .ok m.body

def unpack : Bytes → Except String StreamDataMessage
  | hi :: lo :: data =>
    let header := Bytes.uint16 hi lo
    .ok { streamID := header &&& streamIDMax
          eof := header &&& streamHeaderEOF != 0
          compressed := header &&& streamHeaderCompressed != 0
          data }
  | _ => .error errShortBuffer

instance instMessageBase : MessageBase StreamDataMessage where
  pack := pack
  getType _ := streamDataMessageType

lemma or_and (a b c : UInt16) : (a ||| b) &&& c = (a &&& c) ||| (b &&& c) := by
  apply UInt16.toBitVec_inj.1
  exact BitVec.and_or_distrib_right

lemma header_masks : m.header &&& streamIDMax = m.streamID &&& streamIDMax ∧
      (m.header &&& streamHeaderEOF != 0) = m.eof ∧
      (m.header &&& streamHeaderCompressed != 0) = m.compressed := by
  have hid_eof : streamIDMax &&& streamHeaderEOF = 0 := by decide
  have hid_compressed : streamIDMax &&& streamHeaderCompressed = 0 := by decide
  have heof_id : streamHeaderEOF &&& streamIDMax = 0 := by decide
  have hcompressed_id : streamHeaderCompressed &&& streamIDMax = 0 := by decide
  have heof : streamHeaderEOF ≠ 0 := by decide
  have hcompressed : streamHeaderCompressed ≠ 0 := by decide
  have heof_compressed : streamHeaderEOF &&& streamHeaderCompressed = 0 := by decide
  have hcompressed_eof : streamHeaderCompressed &&& streamHeaderEOF = 0 := by decide
  obtain ⟨id, data, eof, compressed⟩ := m
  cases eof <;> cases compressed <;>
    simp [header, or_and, UInt16.and_assoc, *]

/-- A packed message comes out again, but for the bits of the stream ID that have no room. -/
theorem unpack_body : unpack m.body = .ok { m with streamID := m.streamID &&& streamIDMax } := by
  obtain ⟨hid, heof, hcompressed⟩ := m.header_masks
  simp [body, Bytes.putUint16, unpack, hid, heof, hcompressed]

end StreamDataMessage

inductive ChannelMessage where
  | stream (m : StreamDataMessage)
  | generic (g : GenericMessage)
deriving DecidableEq

def streamRegistry : Registry ChannelMessage where
  factories msgType :=
    if msgType = streamDataMessageType then some fun b => (StreamDataMessage.unpack b).map .stream
    else none
  generic := .generic
  messageHandlers := []

/-! ## Compression -/

/-- A compressor, either direction of which may fail, and whose decompression inverts its
compression. -/
structure Bzip2 where
  compressData : Bytes → Option Bytes
  bunzip2 : Bytes → Option Bytes
  bunzip2_compressData : ∀ {b z : Bytes}, compressData b = some z → bunzip2 z = some b

/-- What the reader makes of compressed data: nothing if they do not decompress, or to more than a
writer compresses at once. -/
def Bzip2.decompressData (codec : Bzip2) (data : Bytes) : Bytes :=
  match codec.bunzip2 data with
  | none => []
  | some decompressed => if maxChunkLen < decompressed.length then [] else decompressed

lemma Bzip2.decompressData_compressData (codec : Bzip2) {b z : Bytes}
    (h : codec.compressData b = some z) (hlen : b.length ≤ maxChunkLen) :
    codec.decompressData z = b := by
  rw [decompressData, codec.bunzip2_compressData h]
  exact if_neg (not_lt.2 hlen)

def StreamDataMessage.decode (codec : Bzip2) (m : StreamDataMessage) : Bytes :=
  if m.compressed then codec.decompressData m.data else m.data

/-! ## The writer -/

inductive CompressionPolicy where
  | auto
  | disabled
deriving DecidableEq

structure RawChannelWriter where
  streamID : ℤ
  eof : Bool
  compression : CompressionPolicy
deriving DecidableEq

def Channel.mdu (o : Outlet) : ℕ := max (min (outletMDU o - channelHeaderSize) 0xFFFF) 1

def streamMDU (o : Outlet) : ℕ :=
  let mdu := Channel.mdu o - streamHeaderSize
  if mdu < 1 then 1 else mdu

/-- One round of the compression loop: the first part of `p`, compressed, and its length, if the
message has room for it and it is shorter than the part itself. -/
def tryCompress (codec : Bzip2) (mdu : ℕ) (p : Bytes) (attempt : ℕ) : Option (Bytes × ℕ) :=
  let chunkLen := p.length / attempt
  match codec.compressData (p.take chunkLen) with
  | none => none
  | some compressed =>
    if compressed.length < mdu ∧ compressed.length < chunkLen then some (compressed, chunkLen)
    else none

lemma tryCompress_some {codec : Bzip2} {mdu attempt : ℕ} {compressed : Bytes}
    (h : tryCompress codec mdu p attempt = some (compressed, n)) :
    codec.compressData (p.take n) = some compressed ∧ n ≤ p.length ∧
      compressed.length < mdu := by
  simp only [tryCompress] at h
  cases hz : codec.compressData (p.take (p.length / attempt)) with
  | none => simp [hz] at h
  | some z =>
    simp only [hz] at h
    split_ifs at h with hshort
    obtain ⟨rfl, rfl⟩ := h
    exact ⟨hz, Nat.div_le_self _ _, hshort.1⟩

namespace RawChannelWriter

variable {codec : Bzip2} {w : RawChannelWriter}

def compressed (codec : Bzip2) (mdu : ℕ) (w : RawChannelWriter) (p : Bytes) : Option (Bytes × ℕ) :=
  if w.compression ≠ .disabled ∧ compressThreshold < p.length then
    (range' 1 (compressTries - 1)).findSome? (tryCompress codec mdu p)
  else none

lemma compressed_some {mdu : ℕ} {data : Bytes} (h : w.compressed codec mdu p = some (data, n)) :
    codec.compressData (p.take n) = some data ∧ n ≤ p.length ∧ data.length < mdu := by
  simp only [compressed] at h
  split_ifs at h
  obtain ⟨attempt, -, hround⟩ := exists_of_findSome?_eq_some h
  exact tryCompress_some hround

def message (codec : Bzip2) (mdu : ℕ) (w : RawChannelWriter) (p : Bytes) : StreamDataMessage × ℕ :=
  let p := p.take maxChunkLen
  match w.compressed codec mdu p with
  | some (data, processed) => (⟨.ofInt w.streamID, data, w.eof, true⟩, processed)
  | none =>
    let p := p.take mdu
    (⟨.ofInt w.streamID, p, w.eof, false⟩, p.length)

/-- `WriteContext`: the message handed to the channel, and what is returned.  `sent` is what the
channel answers, be it while it is waited for or when the message is sent. -/
def writeContext (codec : Bzip2) (o : Outlet) (sent : Except String Unit) (w : RawChannelWriter)
    (p : Bytes) : Option StreamDataMessage × Except String ℕ :=
  let (msg, processed) := w.message codec (streamMDU o) p
  match sent with
  | .error err => (none, .error err)
  | .ok () => (some msg, .ok processed)

@[simp] lemma streamID_message (codec : Bzip2) (mdu : ℕ) (w : RawChannelWriter) (p : Bytes) :
    (w.message codec mdu p).1.streamID = .ofInt w.streamID := by
  simp only [message]
  split <;> rfl

lemma message_plain (hpolicy : w.compression = .disabled) {mdu : ℕ}
    (hp : p.length ≤ mdu) (hmax : p.length ≤ maxChunkLen) :
    w.message codec mdu p = (⟨.ofInt w.streamID, p, w.eof, false⟩, p.length) := by
  simp [message, compressed, hpolicy, take_of_length_le hp, take_of_length_le hmax]

/-- **The reader gets out what the writer takes in.**  The bytes carried by the message are the
bytes of `p` that the writer reports as written, compressed or not. -/
lemma decode_message (codec : Bzip2) (mdu : ℕ) (w : RawChannelWriter) (p : Bytes) :
    (w.message codec mdu p).1.decode codec = p.take (w.message codec mdu p).2 := by
  simp only [message]
  cases hz : w.compressed codec mdu (p.take maxChunkLen) with
  | none =>
    -- the two cuts of `p` are one cut at the smaller length
    simp only [StreamDataMessage.decode, Bool.false_eq_true, if_false, take_take, length_take]
    rw [← take_eq_take_min]
  | some found =>
    obtain ⟨data, n⟩ := found
    obtain ⟨hround, hn, -⟩ := compressed_some hz
    have hmax : n ≤ maxChunkLen := hn.trans (length_take_le _ _)
    rw [take_take, min_eq_left hmax] at hround
    exact codec.decompressData_compressData hround ((length_take_le _ _).trans hmax)

end RawChannelWriter

/-! ## The reader -/

/-- The receiving end: the bytes not read yet, whether the stream has ended, and the callbacks that
are told of new data, by number. -/
structure RawChannelReader where
  streamID : ℤ
  buffer : Bytes
  eof : Bool
  callbacks : List ℕ
  nextCallbackID : ℕ
deriving DecidableEq

/-- What the handling of a message leaves: the reader, the calls of callbacks with the number of
unread bytes, and whether the message was taken. -/
structure HandledMessage where
  reader : RawChannelReader
  ready : List (ℕ × ℕ)
  taken : Bool
deriving DecidableEq

namespace RawChannelReader

variable {codec : Bzip2} {r : RawChannelReader}

section

variable (r : RawChannelReader)

def addReadyCallback : RawChannelReader :=
  { r with callbacks := r.callbacks ++ [r.nextCallbackID], nextCallbackID := r.nextCallbackID + 1 }

def removeReadyCallback (id : ℕ) : RawChannelReader :=
  { r with callbacks := r.callbacks.filter (· ≠ id) }

/-- `Read` into a slice of `n` bytes: the reader after it, the bytes read, and the error.  The
buffer itself reports its end for an empty slice only if it was asked for something. -/
def read (n : ℕ) : RawChannelReader × Bytes × Option String :=
  if r.buffer.length = 0 ∧ r.eof then (r, [], some errEOF)
  else
    let err := if r.buffer.length = 0 ∧ 0 < n then some errEOF else none
    ({ r with buffer := r.buffer.drop n }, r.buffer.take n,
      if err = some errEOF ∧ ¬ r.eof then none else err)

/-- A message is offered to the reader.  The end of the stream is honoured even if the data are
dropped. -/
def handleMessage (codec : Bzip2) (r : RawChannelReader) : ChannelMessage → HandledMessage
  | .generic _ => ⟨r, [], false⟩
  | .stream m =>
    if m.streamID ≠ .ofInt r.streamID then ⟨r, [], false⟩
    else
      let data := m.decode codec
      let buffer :=
        if 0 < data.length then
          if r.buffer.length + data.length ≤ maxReaderBufferBytes then r.buffer ++ data
          else r.buffer
        else r.buffer
      let r := { r with buffer, eof := r.eof || m.eof }
      ⟨r, r.callbacks.map (·, r.buffer.length), true⟩

/-- The bytes that a message brings to the reader of the given stream, whether it has room for them
or not. -/
def payload (codec : Bzip2) (streamID : ℤ) : ChannelMessage → Bytes
  | .generic _ => []
  | .stream m => if m.streamID = .ofInt streamID then m.decode codec else []

lemma bytes_read (n : ℕ) : (r.read n).2.1 = r.buffer.take n := by
  by_cases hend : r.buffer.length = 0 ∧ r.eof
  · simp only [read, hend, and_self, if_true]
    rw [eq_nil_of_length_eq_zero hend.1, take_nil]
  · simp only [read, hend, if_false]

lemma read_append (n : ℕ) : (r.read n).2.1 ++ (r.read n).1.buffer = r.buffer := by
  by_cases hend : r.buffer.length = 0 ∧ r.eof
  · simp only [read, hend]
    exact nil_append _
  · simp only [read, hend]
    exact take_append_drop n r.buffer

@[simp] lemma streamID_read (n : ℕ) : (r.read n).1.streamID = r.streamID := by
  simp only [read]
  split_ifs <;> rfl

end

@[simp] lemma streamID_handleMessage (msg : ChannelMessage) :
    (r.handleMessage codec msg).reader.streamID = r.streamID := by
  cases msg with
  | generic g => rfl
  | stream m =>
    simp only [handleMessage]
    split_ifs <;> rfl

lemma buffer_handleMessage_of_le {msg : ChannelMessage}
    (h : r.buffer.length + (payload codec r.streamID msg).length ≤ maxReaderBufferBytes) :
    (r.handleMessage codec msg).reader.buffer = r.buffer ++ payload codec r.streamID msg := by
  cases msg with
  | generic g => simp [handleMessage, payload]
  | stream m =>
    by_cases hid : m.streamID = .ofInt r.streamID
    · simp only [payload, hid, if_true] at h ⊢
      simp only [handleMessage, ne_eq, h]
      split_ifs with hdata
      · rfl
      · simp [eq_nil_of_length_eq_zero (Nat.eq_zero_of_not_pos hdata)]
    · simp [handleMessage, payload, hid]

lemma buffer_handleMessage_of_lt {msg : ChannelMessage}
    (h : maxReaderBufferBytes < r.buffer.length + (payload codec r.streamID msg).length) :
    (r.handleMessage codec msg).reader.buffer = r.buffer := by
  cases msg with
  | generic g => rfl
  | stream m =>
    by_cases hid : m.streamID = .ofInt r.streamID
    · simp only [payload, hid, if_true] at h
      simp [handleMessage, hid, not_le.2 h]
    · simp [handleMessage, hid]

end RawChannelReader

/-! ## Both ends -/

/-- The two ends of a stream.  `inFlight` is what the channel has accepted and not delivered yet,
each message by its type and its body; `accepted` is what the writer reported as written, and
`returned` what the reader has handed out. -/
structure StreamPair where
  writer : RawChannelWriter
  reader : RawChannelReader
  inFlight : List (UInt16 × Bytes)
  accepted : Bytes
  returned : Bytes
deriving DecidableEq

/-- What happens to a stream: bytes are written, with what the channel answers; the writer is
closed; someone else sends a message over the channel; the channel delivers the next message; bytes
are read; a callback is added or removed. -/
inductive StreamEvent where
  | write (o : Outlet) (p : Bytes) (sent : Except String Unit)
  | close (o : Outlet) (sent : Except String Unit)
  | other (msgType : UInt16) (body : Bytes)
  | deliver
  | read (n : ℕ)
  | addReadyCallback
  | removeReadyCallback (id : ℕ)

namespace StreamPair

open RawChannelReader

variable {codec : Bzip2} {s : StreamPair}

def new (streamID : ℤ) (compression : CompressionPolicy) : StreamPair where
  writer := ⟨streamID, false, compression⟩
  reader := ⟨streamID, [], false, [], 0⟩
  inFlight := []
  accepted := []
  returned := []

section

variable (codec : Bzip2)

def write (o : Outlet) (sent : Except String Unit) (s : StreamPair) (p : Bytes) : StreamPair :=
  match s.writer.writeContext codec o sent p with
  | (some msg, .ok n) =>
    { s with
      inFlight := s.inFlight ++ [(MessageBase.getType msg, msg.body)]
      accepted := s.accepted ++ p.take n }
  | _ => s

/-- The next message is unpacked and offered to the reader.  Its sequence number is not looked at
by a stream. -/
def deliver (s : StreamPair) : StreamPair :=
  match s.inFlight with
  | [] => s
  | (msgType, body) :: rest =>
    match Channel.unpackMessage streamRegistry msgType 0 body with
    | .error _ => { s with inFlight := rest }
    | .ok msg => { s with inFlight := rest, reader := (s.reader.handleMessage codec msg).reader }

def step (s : StreamPair) : StreamEvent → StreamPair
  | .write o p sent => s.write codec o sent p
  | .close o sent => ({ s with writer := { s.writer with eof := true } }).write codec o sent []
  | .other msgType body => { s with inFlight := s.inFlight ++ [(msgType, body)] }
  | .deliver => s.deliver codec
  | .read n =>
    { s with reader := (s.reader.read n).1, returned := s.returned ++ (s.reader.read n).2.1 }
  | .addReadyCallback => { s with reader := s.reader.addReadyCallback }
  | .removeReadyCallback id => { s with reader := s.reader.removeReadyCallback id }

def carried (streamID : ℤ) (item : UInt16 × Bytes) : Bytes :=
  match Channel.unpackMessage streamRegistry item.1 0 item.2 with
  | .error _ => []
  | .ok msg => payload codec streamID msg

/-- Whether no bytes are lost or added by a step: the reader has room for a message that is
delivered to it, and a message of someone else has no bytes for this stream. -/
def fits (s : StreamPair) : StreamEvent → Bool
  | .deliver => s.inFlight.head?.all fun item =>
    s.reader.buffer.length + (carried codec s.reader.streamID item).length ≤ maxReaderBufferBytes
  | .other msgType body => (carried codec s.reader.streamID (msgType, body)).isEmpty
  | _ => true

def pending (s : StreamPair) : Bytes :=
  s.inFlight.flatMap (carried codec s.reader.streamID)

end

/-- The bytes sent with the stream ID `sent` that reach the reader: all of them, or none, since a
stream ID of more than 14 bits is not the one that arrives. -/
def reaching (sent : UInt16) (streamID : ℤ) (b : Bytes) : Bytes :=
  if sent &&& streamIDMax = .ofInt streamID then b else []

@[simp] lemma reaching_nil (sent : UInt16) (streamID : ℤ) : reaching sent streamID [] = [] :=
  ite_self []

lemma reaching_append (sent : UInt16) (streamID : ℤ) (a b : Bytes) :
    reaching sent streamID (a ++ b) = reaching sent streamID a ++ reaching sent streamID b := by
  simp only [reaching]
  split_ifs <;> rfl

lemma reaching_isPrefix (sent : UInt16) (streamID : ℤ) (b : Bytes) :
    reaching sent streamID b <+: b := by
  rw [reaching]
  split_ifs
  · exact prefix_rfl
  · exact nil_prefix

def expected (s : StreamPair) : Bytes :=
  reaching (.ofInt s.writer.streamID) s.reader.streamID s.accepted

/-- **No byte is lost.**  What was read, what is unread and what is on its way are together what is
expected. -/
def Conserved (codec : Bzip2) (s : StreamPair) : Prop :=
  s.returned ++ s.reader.buffer ++ s.pending codec = s.expected

lemma Conserved.returned_le (h : s.Conserved codec) : s.returned <+: s.accepted := by
  have hreturned : s.returned <+: s.expected := by
    rw [← h, append_assoc]
    exact prefix_append _ _
  exact hreturned.trans (reaching_isPrefix _ _ _)

/-! ### What each step does to the bytes -/

lemma carried_message (streamID : ℤ) (m : StreamDataMessage) :
    carried codec streamID (MessageBase.getType m, m.body) =
      reaching m.streamID streamID (m.decode codec) := by
  have harrival : Channel.unpackMessage streamRegistry (MessageBase.getType m) 0 m.body =
      .ok (.stream { m with streamID := m.streamID &&& streamIDMax }) := by
    simp only [Channel.unpackMessage, streamRegistry, MessageBase.getType, if_true, m.unpack_body]
    rfl
  simp only [carried, harrival]
  rfl

lemma deliver_cons (codec : Bzip2) {item : UInt16 × Bytes} {rest : List (UInt16 × Bytes)}
    (h : s.inFlight = item :: rest) :
    ∃ r, s.deliver codec = { s with inFlight := rest, reader := r } ∧
      r.streamID = s.reader.streamID ∧
      (s.reader.buffer.length + (carried codec s.reader.streamID item).length ≤
          maxReaderBufferBytes →
        r.buffer = s.reader.buffer ++ carried codec s.reader.streamID item) ∧
      (maxReaderBufferBytes <
          s.reader.buffer.length + (carried codec s.reader.streamID item).length →
        r.buffer = s.reader.buffer) := by
  obtain ⟨msgType, body⟩ := item
  cases hmsg : Channel.unpackMessage streamRegistry msgType 0 body with
  | error err =>
    refine ⟨s.reader, ?_, rfl, ?_, fun _ => rfl⟩
    · simp [deliver, h, hmsg]
    · simp [carried, hmsg]
  | ok msg =>
    refine ⟨(s.reader.handleMessage codec msg).reader, ?_, streamID_handleMessage msg, ?_, ?_⟩
    · simp [deliver, h, hmsg]
    · simp only [carried, hmsg]
      exact buffer_handleMessage_of_le
    · simp only [carried, hmsg]
      exact buffer_handleMessage_of_lt

/-- No byte is lost, and the reader holds no more than it may. -/
structure Inv (codec : Bzip2) (s : StreamPair) : Prop where
  conserved : s.Conserved codec
  bounded : s.reader.buffer.length ≤ maxReaderBufferBytes

lemma Inv.init (streamID : ℤ) (compression : CompressionPolicy) :
    Inv codec (new streamID compression) where
  conserved := by simp [Conserved, new, pending, expected]
  bounded := Nat.zero_le _

section

variable (h : Inv codec s)
include h

lemma Inv.write (o : Outlet) (sent : Except String Unit) (p : Bytes) :
    Inv codec (s.write codec o sent p) := by
  cases sent with
  | error err => exact h
  | ok u =>
    refine ⟨?_, h.bounded⟩
    have hconserved := h.conserved
    simp only [Conserved, StreamPair.write, RawChannelWriter.writeContext, pending, expected,
      flatMap_append, flatMap_singleton, carried_message,
      RawChannelWriter.decode_message] at hconserved ⊢
    rw [reaching_append, ← hconserved]
    simp

lemma Inv.read (n : ℕ) : Inv codec (step codec s (.read n)) where
  conserved := by
    have hmoved := s.reader.read_append n
    have hconserved := h.conserved
    simp only [Conserved, step, pending, expected, streamID_read] at hconserved ⊢
    rw [← hconserved, append_assoc s.returned, hmoved]
  bounded := by
    have hlength := congrArg length (s.reader.read_append n)
    rw [length_append] at hlength
    exact (Nat.le_add_left _ _).trans (hlength.le.trans h.bounded)

lemma Inv.deliver (hfits : fits codec s .deliver) : Inv codec (s.deliver codec) := by
  cases hqueue : s.inFlight with
  | nil =>
    rw [StreamPair.deliver, hqueue]
    exact h
  | cons item rest =>
    obtain ⟨r, hstep, hid, hroom, -⟩ := deliver_cons codec hqueue
    simp only [fits, hqueue, head?_cons, Option.all_some, decide_eq_true_eq] at hfits
    have hconserved := h.conserved
    rw [hstep]
    constructor
    · simp only [Conserved, pending, expected, hqueue, hid, hroom hfits]
        at hconserved ⊢
      rw [← hconserved]
      simp
    · simp only [hroom hfits, length_append]
      exact hfits

lemma Inv.other {msgType : UInt16} {body : Bytes} (hfits : fits codec s (.other msgType body)) :
    Inv codec (step codec s (.other msgType body)) where
  conserved := by
    have hconserved := h.conserved
    simp only [fits, List.isEmpty_iff] at hfits
    simp only [Conserved, step, pending, flatMap_append, flatMap_singleton, hfits,
      append_nil] at hconserved ⊢
    exact hconserved
  bounded := h.bounded

lemma Inv.step (e : StreamEvent) (hfits : fits codec s e) : Inv codec (step codec s e) := by
  cases e with
  | write o p sent => exact h.write o sent p
  | close o sent =>
    have hclosed : Inv codec { s with writer := { s.writer with eof := true } } :=
      ⟨h.conserved, h.bounded⟩
    exact hclosed.write o sent []
  | other msgType body => exact h.other hfits
  | deliver => exact h.deliver hfits
  | read n => exact h.read n
  | addReadyCallback | removeReadyCallback id => exact ⟨h.conserved, h.bounded⟩

lemma Inv.not_conserved (e : StreamEvent) (hfits : ¬ fits codec s e) :
    ¬ (StreamPair.step codec s e).Conserved codec := by
  have hbefore := congrArg length h.conserved
  have hbounded := h.bounded
  intro hafter
  have hafter := congrArg length hafter
  cases e with
  | other msgType body =>
    simp only [fits, List.isEmpty_iff] at hfits
    have hsome := length_pos_iff.2 hfits
    simp only [StreamPair.step, pending, expected, flatMap_append, flatMap_singleton,
      length_append] at hbefore hafter
    omega
  | deliver =>
    cases hqueue : s.inFlight with
    | nil => simp [fits, hqueue] at hfits
    | cons item rest =>
      obtain ⟨r, hstep, hid, -, hfull⟩ := deliver_cons codec hqueue
      simp only [fits, hqueue, head?_cons, Option.all_some, decide_eq_true_eq, not_le]
        at hfits
      simp only [StreamPair.step, hstep, pending, expected, hqueue, flatMap_cons, hid,
        hfull hfits, length_append] at hbefore hafter
      omega
  | write o p sent | close o sent | read n | addReadyCallback
  | removeReadyCallback id => exact absurd rfl hfits

end

/-! ### Whole runs -/

/-- **Exactly the steps that do not fit lose or add bytes.** -/
theorem conserved_iff_fits (codec : Bzip2) (streamID : ℤ) (compression : CompressionPolicy)
    (es : List StreamEvent) :
    Run.Always (step codec) (Conserved codec) (new streamID compression) es ↔
      Run.Along (step codec) (fun s e => fits codec s e) (new streamID compression) es :=
  Run.always_iff_along (I := Inv codec) (fun _ h => h.conserved) (fun _ e h => h.step e)
    (fun _ e h => h.not_conserved e) (.init streamID compression)

/-- **Stream integrity.**  In every run whose deliveries all find room in the buffer, the bytes read
so far are always a prefix of the bytes accepted so far. -/
theorem read_prefix_of_fits (codec : Bzip2) (streamID : ℤ) (compression : CompressionPolicy)
    {es : List StreamEvent}
    (h : Run.Along (step codec) (fun s e => fits codec s e) (new streamID compression) es) :
    Run.Always (step codec) (fun s => s.returned <+: s.accepted) (new streamID compression) es :=
  ((conserved_iff_fits codec streamID compression es).2 h).mono fun _ => Conserved.returned_le

def zeroRuns : Bzip2 where
  compressData b :=
    if b = replicate b.length 0 ∧ b.length < 256 then some [.ofNat b.length] else none
  bunzip2
    | [n] => some (replicate n.toNat 0)
    | _ => none
  bunzip2_compressData := by
    intro b z h
    split_ifs at h with hzeros
    obtain rfl := Option.some.inj h
    simp only [UInt8.toNat_ofNat', Nat.mod_eq_of_lt hzeros.2]
    rw [← hzeros.1]

def smallOutlet : Outlet := ⟨1, some 431, 1⟩

/-- Forty zeros go compressed and two bytes as they are; reads come in between, the channel refuses
one write, and another stream sends as well. -/
def twoWrites : List StreamEvent :=
  [.write smallOutlet (replicate 40 0) (.ok ()), .other streamDataMessageType [0, 8, 9],
    .deliver, .read 39, .write smallOutlet [5] (.error errLinkNotReady),
    .write smallOutlet [1, 2] (.ok ()), .deliver, .deliver, .read 2, .close smallOutlet (.ok ()),
    .deliver, .read 10]

theorem twoWrites_read_prefix :
    (Run.exec (step zeroRuns) (new 7 .auto) twoWrites).returned = replicate 40 0 ++ [1, 2] ∧
      Run.Always (step zeroRuns) (fun s => s.returned <+: s.accepted) (new 7 .auto) twoWrites :=
  ⟨by decide +kernel, read_prefix_of_fits zeroRuns 7 .auto (by decide +kernel)⟩

/-! ### A full buffer -/

def carry (p : Bytes) : List StreamEvent := [.write smallOutlet p (.ok ()), .deliver]

/-- A stream between two deliveries: nothing is in flight, nothing was read yet, and the writer does
not compress. -/
structure Idle (s : StreamPair) (accepted buffer : Bytes) : Prop where
  addressed : .ofInt s.writer.streamID &&& streamIDMax = .ofInt s.reader.streamID
  compression : s.writer.compression = .disabled
  inFlight : s.inFlight = []
  returned : s.returned = []
  accepted : s.accepted = accepted
  buffer : s.reader.buffer = buffer

lemma Idle.carry {accepted buffer : Bytes} (h : Idle s accepted buffer) (codec : Bzip2)
    (hp : p.length ≤ 423) :
    Idle (Run.exec (step codec) s (carry p)) (accepted ++ p)
      (if buffer.length + p.length ≤ maxReaderBufferBytes then buffer ++ p else buffer) := by
  have hmdu : streamMDU smallOutlet = 423 := by decide
  have hmax : p.length ≤ maxChunkLen := hp.trans (by decide)
  let m : StreamDataMessage := ⟨.ofInt s.writer.streamID, p, s.writer.eof, false⟩
  let t : StreamPair :=
    { s with inFlight := [(MessageBase.getType m, m.body)], accepted := s.accepted ++ p }
  have hwrite : step codec s (.write smallOutlet p (.ok ())) = t := by
    simp only [step, write, RawChannelWriter.writeContext, hmdu,
      RawChannelWriter.message_plain h.compression hp hmax, h.inFlight, take_length]
    rfl
  have hcarried : carried codec s.reader.streamID (MessageBase.getType m, m.body) = p := by
    rw [carried_message]
    exact if_pos h.addressed
  obtain ⟨r, hdeliver, hid, hroom, hfull⟩ := deliver_cons codec (s := t) rfl
  have hrun : Run.exec (step codec) s (StreamPair.carry p) =
      { t with inFlight := [], reader := r } := by
    simp only [StreamPair.carry, Run.exec_cons, hwrite]
    exact hdeliver
  rw [hrun]
  refine ⟨?_, h.compression, rfl, h.returned, ?_, ?_⟩
  · rw [hid]
    exact h.addressed
  · rw [← h.accepted]
  · rw [hcarried, h.buffer] at hroom hfull
    split_ifs with hle
    · exact hroom hle
    · exact hfull (not_le.1 hle)

def fill (p : Bytes) : ℕ → List StreamEvent
  | 0 => []
  | n + 1 => fill p n ++ carry p

lemma length_flatten_replicate (p : Bytes) (n : ℕ) :
    (replicate n p).flatten.length = n * p.length := by
  simp

lemma idle_fill (codec : Bzip2) (hp : p.length ≤ 423) (hn : n * p.length ≤ maxReaderBufferBytes) :
    Idle (Run.exec (step codec) (new 7 .disabled) (fill p n)) (replicate n p).flatten
      (replicate n p).flatten := by
  induction n with
  | zero =>
    have haddressed : .ofInt 7 &&& streamIDMax = .ofInt 7 := by decide
    exact ⟨haddressed, rfl, rfl, rfl, rfl, rfl⟩
  | succ n ih =>
    rw [Nat.succ_mul] at hn
    have hcarry := (ih (le_trans (Nat.le_add_right _ _) hn)).carry codec hp
    rw [length_flatten_replicate, if_pos hn] at hcarry
    rw [fill, Run.exec_append, replicate_succ', flatten_concat]
    exact hcarry

/-- **A chunk too large for what is left, and a smaller one after it.**  The reader returns the
second without the first. -/
lemma exec_overfull (codec : Bzip2) {q r : Bytes} (hp : p.length ≤ 423) (hq : q.length ≤ 423)
    (hr : r.length ≤ 423) (hroom : n * p.length + r.length ≤ maxReaderBufferBytes)
    (hfull : maxReaderBufferBytes < n * p.length + q.length) :
    let s := Run.exec (step codec) (new 7 .disabled)
      (fill p n ++ carry q ++ carry r ++ [.read maxReaderBufferBytes])
    s.returned = (replicate n p).flatten ++ r ∧
      s.accepted = (replicate n p).flatten ++ (q ++ r) := by
  have hfill := idle_fill codec hp (le_trans (Nat.le_add_right _ _) hroom)
  have hlost := hfill.carry codec hq
  rw [length_flatten_replicate, if_neg (not_le.2 hfull)] at hlost
  have hlater := hlost.carry codec hr
  rw [length_flatten_replicate, if_pos hroom] at hlater
  simp only [Run.exec_append, Run.exec_cons]
  refine ⟨?_, ?_⟩
  · simp only [step, hlater.returned, bytes_read, hlater.buffer]
    apply take_of_length_le
    rw [length_append, length_flatten_replicate]
    exact hroom
  · simp [step, hlater.accepted]

/-- Eight mebibytes of zeros but 95, then 423 ones, then a two; then everything is read. -/
def overfull : List StreamEvent :=
  fill (replicate 423 0) 19831 ++ carry (replicate 423 1) ++ carry [2] ++
    [.read maxReaderBufferBytes]

/-- **The bytes after a gap.**  The reader returns the zeros and the two: the ones were accepted by
the writer, delivered by the channel, and dropped. -/
theorem overfull_loses_ones :
    (Run.exec (step zeroRuns) (new 7 .disabled) overfull).returned =
        (replicate 19831 (replicate 423 0)).flatten ++ [2] ∧
      (Run.exec (step zeroRuns) (new 7 .disabled) overfull).accepted =
        (replicate 19831 (replicate 423 0)).flatten ++ (replicate 423 1 ++ [2]) ∧
      ¬ Run.Always (step zeroRuns) (fun s => s.returned <+: s.accepted) (new 7 .disabled)
        overfull := by
  have hlength (x : UInt8) : (replicate 423 x).length = 423 := length_replicate
  obtain ⟨hreturned, haccepted⟩ := exec_overfull zeroRuns (n := 19831) (hlength 0).le (hlength 1).le
    (r := [2]) (by decide) (by rw [hlength]; decide) (by rw [hlength, hlength]; decide)
  refine ⟨hreturned, haccepted, mt Run.Always.last ?_⟩
  simp only [overfull, hreturned, haccepted]
  rw [prefix_append_right_inj]
  decide

end StreamPair

end Reticulum

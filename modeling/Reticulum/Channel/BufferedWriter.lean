import Reticulum.Channel.Stream
import Reticulum.Core.Buffered

/-!
# The buffered writer of a stream

`CreateWriter` puts a buffered writer of the standard library in front of a `RawChannelWriter`.  It
takes it for granted that what it is in front of takes all it is given, or reports an error.
`WriteContext` does neither: it makes *one* message, and reports how many bytes went into it.
**`buffered_iff_fits`** says which writes arrive.
-/

namespace Reticulum

open Stream.Constants List

namespace RawChannelWriter

variable {codec : Bzip2} {w : RawChannelWriter} {mdu : ℕ} {p : Bytes}

/-! ## What goes into one message -/

def compresses (w : RawChannelWriter) (p : Bytes) : Bool :=
  w.compression ≠ .disabled && compressThreshold < p.length

/-- All of `p` goes into one message, compressed by the first round of the loop or as it is. -/
def goesWhole (codec : Bzip2) (mdu : ℕ) (w : RawChannelWriter) (p : Bytes) : Prop :=
  p.length ≤ maxChunkLen ∧
    if w.compresses p then
      (tryCompress codec mdu p 1).isSome ∨
        p.length ≤ mdu ∧ tryCompress codec mdu p 2 = none ∧ tryCompress codec mdu p 3 = none
    else p.length ≤ mdu

lemma compressed_eq (codec : Bzip2) (mdu : ℕ) (w : RawChannelWriter) (p : Bytes) :
    w.compressed codec mdu p =
      if w.compresses p then
        (tryCompress codec mdu p 1).or ((tryCompress codec mdu p 2).or (tryCompress codec mdu p 3))
      else none := by
  simp only [compressed, compresses, Bool.and_eq_true, decide_eq_true_eq]
  split_ifs
  · simp only [compressTries, range', findSome?]
    cases tryCompress codec mdu p 1 <;> cases tryCompress codec mdu p 2 <;>
      cases tryCompress codec mdu p 3 <;> rfl
  · rfl

lemma tryCompress_length {attempt n : ℕ} {data : Bytes}
    (h : tryCompress codec mdu p attempt = some (data, n)) : n = p.length / attempt ∧ 0 < n := by
  simp only [tryCompress] at h
  cases hz : codec.compressData (p.take (p.length / attempt)) with
  | none => simp [hz] at h
  | some z =>
    simp only [hz] at h
    split_ifs at h with hshort
    obtain ⟨-, rfl⟩ := h
    exact ⟨rfl, Nat.zero_lt_of_lt hshort.2⟩

lemma message_le (codec : Bzip2) (mdu : ℕ) (w : RawChannelWriter) (p : Bytes) :
    (w.message codec mdu p).2 ≤ (p.take maxChunkLen).length := by
  simp only [message]
  cases hz : w.compressed codec mdu (p.take maxChunkLen) with
  | none => exact (take_sublist mdu _).length_le
  | some found =>
    exact (compressed_some hz).2.1

lemma message_pos (hmdu : 0 < mdu) (hp : p ≠ []) : 0 < (w.message codec mdu p).2 := by
  have hlength : 0 < (p.take maxChunkLen).length := by
    rw [length_take]
    exact lt_min (by decide) (length_pos_of_ne_nil hp)
  simp only [message]
  cases hz : w.compressed codec mdu (p.take maxChunkLen) with
  | none =>
    simp only [length_take] at hlength ⊢
    omega
  | some found =>
    simp only [compressed] at hz
    split_ifs at hz
    obtain ⟨attempt, -, hround⟩ := exists_of_findSome?_eq_some hz
    exact (tryCompress_length hround).2

lemma tryCompress_lt {attempt n : ℕ} {data : Bytes} (hattempt : 2 ≤ attempt) (hp : 0 < p.length)
    (h : tryCompress codec mdu p attempt = some (data, n)) : n < p.length := by
  rw [(tryCompress_length h).1]
  exact Nat.div_lt_self hp hattempt

section

variable (codec : Bzip2)

/-- **Short writes.**  All the bytes are reported exactly if they go into one message. -/
lemma message_whole_iff (mdu : ℕ) (w : RawChannelWriter) (p : Bytes) :
    (w.message codec mdu p).2 = p.length ↔ w.goesWhole codec mdu p := by
  by_cases hmax : p.length ≤ maxChunkLen
  · simp only [goesWhole, hmax, message, take_of_length_le hmax, compressed_eq]
    by_cases htry : w.compresses p
    · simp only [htry]
      have hp : 0 < p.length := by
        simp only [compresses, Bool.and_eq_true, decide_eq_true_eq] at htry
        exact Nat.zero_lt_of_lt htry.2
      -- by the round that finds something, if any
      rcases h₁ : tryCompress codec mdu p 1 with _ | ⟨z, n⟩
      · rcases h₂ : tryCompress codec mdu p 2 with _ | ⟨z, n⟩
        · rcases h₃ : tryCompress codec mdu p 3 with _ | ⟨z, n⟩
          · simp
          · have hn := tryCompress_lt (by decide) hp h₃
            simp [hn.ne]
        · have hn := tryCompress_lt (by decide) hp h₂
          simp [hn.ne]
      · have hn := (tryCompress_length h₁).1
        simpa using hn
    · simp [htry]
  · have hlt : (w.message codec mdu p).2 < p.length := by
      refine (w.message_le codec mdu p).trans_lt ?_
      rw [length_take]
      omega
    simp [goesWhole, hmax, hlt.ne]

/-! ## The writer behind a buffer -/

lemma streamMDU_pos (o : Outlet) : 0 < streamMDU o := by
  simp only [streamMDU]
  split_ifs <;> omega

/-- A writer whose channel takes every message, as something to put a buffer in front of: the
messages sent so far. -/
def sink (o : Outlet) (w : RawChannelWriter) :
    Buffered.Sink (List StreamDataMessage) UInt8 String where
  write sent p :=
    match w.writeContext codec o (.ok ()) p with
    | (msg, .ok n) => (sent ++ msg.toList, n, none)
    | (msg, .error err) => (sent ++ msg.toList, 0, some err)
  progress := by
    intro sent p hp _
    exact message_pos (streamMDU_pos o) hp

lemma writeContext_sent (o : Outlet) (w : RawChannelWriter) (p : Bytes) :
    (w.writeContext codec o (.ok ()) p).2 = .ok (w.message codec (streamMDU o) p).2 := rfl

def bytesOf (sent : List StreamDataMessage) : Bytes :=
  sent.flatMap (StreamDataMessage.decode codec)

lemma sink_faithful (o : Outlet) (w : RawChannelWriter) :
    (w.sink codec o).Faithful (bytesOf codec) where
  err := by
    intro sent p
    rfl
  le := by
    intro sent p
    exact (w.message_le codec (streamMDU o) p).trans (take_sublist _ p).length_le
  content := by
    intro sent p
    show bytesOf codec (sent ++ [(w.message codec (streamMDU o) p).1]) = _
    rw [bytesOf, flatMap_append, flatMap_singleton, decode_message]
    rfl

end

def defaultBufSize : ℕ := 4096

def errShortWrite : String := "short write"

def createWriter : Buffered.Writer (List StreamDataMessage) UInt8 String :=
  .new defaultBufSize []

def bufferedStep (codec : Bzip2) (o : Outlet) (w : RawChannelWriter) :
    Buffered.Writer (List StreamDataMessage) UInt8 String → Buffered.Op UInt8 →
      Buffered.Writer (List StreamDataMessage) UInt8 String :=
  .step (w.sink codec o) errShortWrite

/-- **Buffered streams.**  Bytes are written to a new buffered writer, in whatever portions, and
flushed, over a channel that takes every message.  No error is returned and the messages carry
exactly these bytes, if and only if all that is written out of the buffer goes whole.  The writer
below reports all of the bytes it is given in just this case. -/
theorem buffered_iff_fits (codec : Bzip2) (o : Outlet) (w : RawChannelWriter) (ps : List Bytes) :
    ((Run.Always (bufferedStep codec o w) (fun b => b.err = none) createWriter
          (Buffered.Writer.flushed ps) ∧
        bytesOf codec (Run.exec (bufferedStep codec o w) createWriter
          (Buffered.Writer.flushed ps)).wr = ps.flatten) ↔
      Run.Along (bufferedStep codec o w) (Buffered.Writer.fits (w.goesWhole codec (streamMDU o)))
        createWriter (Buffered.Writer.flushed ps)) ∧
      ∀ p, (w.writeContext codec o (.ok ()) p).2 = .ok p.length ↔
        w.goesWhole codec (streamMDU o) p := by
  refine ⟨?_, ?_⟩
  · apply Buffered.Writer.whole_iff_fits (w.sink_faithful codec o)
    intro sent p
    exact w.message_whole_iff codec (streamMDU o) p
  · intro p
    rw [writeContext_sent, Except.ok.injEq, message_whole_iff]

/-! ### A flush that stops short -/

def stored : Bzip2 where
  compressData b := some (0 :: b)
  bunzip2
    | [] => none
    | _ :: b => some b
  bunzip2_compressData := by
    rintro b z h
    obtain rfl := Option.some.inj h
    rfl

lemma message_stored (mdu : ℕ) (w : RawChannelWriter) (hp : p.length ≤ maxChunkLen) :
    w.message stored mdu p = (⟨.ofInt w.streamID, p.take mdu, w.eof, false⟩, min mdu p.length)
    := by
  have hround (attempt : ℕ) : tryCompress stored mdu p attempt = none := by
    have hle : p.length / attempt ≤ p.length := Nat.div_le_self _ _
    simp only [tryCompress, stored, length_cons, length_take]
    rw [if_neg (by omega)]
  simp [message, compressed_eq, take_of_length_le hp, hround]

/-- Bytes for which the buffer has room and a message has not, and which the compressor does not
make fewer, do not survive the flush. -/
lemma exec_flushed_stored (o : Outlet) (w : RawChannelWriter) (hmdu : streamMDU o < p.length)
    (hp : p.length ≤ defaultBufSize) :
    (Run.exec (bufferedStep stored o w) createWriter (Buffered.Writer.flushed [p])).err =
        some errShortWrite ∧
      bytesOf stored (Run.exec (bufferedStep stored o w) createWriter
        (Buffered.Writer.flushed [p])).wr = p.take (streamMDU o) := by
  have hmax : p.length ≤ maxChunkLen := hp.trans (by decide)
  have hroom : p.length ≤ createWriter.available := hp
  have hwrite : (createWriter.write (w.sink stored o) errShortWrite p).1 =
      createWriter.copy p := by
    rw [Buffered.Writer.write, Buffered.Writer.loop_of_le _ _ hroom]
    rfl
  have hbuf : (createWriter.copy p).buf = p := by
    rw [Buffered.Writer.buf_copy, take_of_length_le hroom]
    rfl
  have hempty : (createWriter.copy p).wr = [] := rfl
  have hsink : (w.sink stored o).write [] p =
      ([⟨.ofInt w.streamID, p.take (streamMDU o), w.eof, false⟩], streamMDU o, none) := by
    simp [sink, writeContext, message_stored _ _ hmax, hmdu.le]
  have hflush : Run.exec (bufferedStep stored o w) createWriter (Buffered.Writer.flushed [p]) =
      (createWriter.copy p).flush (w.sink stored o) errShortWrite := by
    rw [← hwrite]
    rfl
  obtain ⟨herr, hwr⟩ := Buffered.Writer.flush_short
    (w.sink_faithful stored o) errShortWrite rfl (by rw [hbuf, hempty, hsink]; exact hmdu)
  rw [hflush, herr, hwr, hbuf, hempty, hsink]
  simp [bytesOf, StreamDataMessage.decode]

/-- Over a link of the smallest MTU, 500 bytes. -/
theorem flush_stops_short :
    (Run.exec (bufferedStep stored StreamPair.smallOutlet ⟨7, false, .auto⟩) createWriter
        (Buffered.Writer.flushed [replicate 500 7])).err = some errShortWrite ∧
      bytesOf stored (Run.exec (bufferedStep stored StreamPair.smallOutlet ⟨7, false, .auto⟩)
        createWriter (Buffered.Writer.flushed [replicate 500 7])).wr =
          replicate 423 7 := by
  have hmdu : streamMDU StreamPair.smallOutlet = 423 := by decide
  have hrun := exec_flushed_stored StreamPair.smallOutlet ⟨7, false, .auto⟩
    (p := replicate 500 7) (by rw [hmdu, length_replicate]; decide)
    (by rw [length_replicate]; decide)
  rw [hmdu, take_replicate] at hrun
  exact hrun

end RawChannelWriter

end Reticulum

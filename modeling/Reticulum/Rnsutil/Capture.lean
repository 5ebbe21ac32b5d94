import Reticulum.Core.Bytes

/-!
# Capturing the output of a command

A command that is executed for a remote peer writes to a `cappedBuffer`, which counts all bytes and
keeps the first ones (`pkg/rnsutil/x.go`).  `Write` returns the length of what it has *kept* when a
write goes beyond the limit.  This is a short write for `io.Copy`, which stops: what comes later is
not counted, and the error takes the place of a successful exit status
(`execute_iff_noneStraddles`).
-/

namespace Reticulum.Rnsutil

open List

/-- Keeps up to `cap` bytes of the `total` that are written. -/
structure CappedBuffer where
  buf : Bytes
  total : ℕ
  cap : ℕ
deriving DecidableEq

namespace CappedBuffer

def new (cap : ℕ) : CappedBuffer := ⟨[], 0, cap⟩

/-- The length that is returned is that of the bytes kept, unless the buffer was full before. -/
def write (w : CappedBuffer) (p : Bytes) : CappedBuffer × ℕ :=
  let rem := w.cap - w.buf.length
  if rem > 0 then
    let kept := if p.length > rem then p.take rem else p
    ({ w with buf := w.buf ++ kept, total := w.total + p.length }, kept.length)
  else ({ w with total := w.total + p.length }, p.length)

/-- `io.Copy`, for the pieces that it reads: whether it stops with an error. -/
def copy (w : CappedBuffer) : List Bytes → CappedBuffer × Bool
  | [] => (w, false)
  | p :: ps => if (w.write p).2 < p.length then ((w.write p).1, true) else (w.write p).1.copy ps

end CappedBuffer

def rnxCaptureCap : ℕ := 32 * 2 ^ 20

/-- The size of the buffer for the limit in a request. -/
def rnxCaptureLimit : Option ℤ → ℕ
  | none => rnxCaptureCap
  | some limit =>
    if limit ≤ 0 then 0 else if limit < rnxCaptureCap then limit.toNat else rnxCaptureCap

/-- Cuts the output that is returned to the limit in a request. -/
def truncateBytes (b : Bytes) : Option ℤ → Bytes
  | none => b
  | some limit =>
    if limit ≤ 0 then [] else if b.length > limit then b.take limit.toNat else b

/-- What is returned to the peer. -/
structure RNXResult where
  returnCode : ℤ
  stdout : Bytes
  stderr : Bytes
  stdoutTotal : ℕ
  stderrTotal : ℕ
deriving DecidableEq

/-- `ExecuteRNXCommandLocally`, from the start of the command on.  Given is what it writes and the
code it ends with; `cmd.Wait` reports an error of copying only if this is zero. -/
def executeRNXCommandLocally (stdoutLimit stderrLimit : Option ℤ) (out err : List Bytes)
    (exitCode : ℤ) (timedOut : Bool) : RNXResult :=
  let stdout := (CappedBuffer.new (rnxCaptureLimit stdoutLimit)).copy out
  let stderr := (CappedBuffer.new (rnxCaptureLimit stderrLimit)).copy err
  { returnCode := if exitCode = 0 ∧ ¬timedOut ∧ (stdout.2 ∨ stderr.2) then 1 else exitCode
    stdout := truncateBytes stdout.1.buf stdoutLimit
    stderr := truncateBytes stderr.1.buf stderrLimit
    stdoutTotal := stdout.1.total
    stderrTotal := stderr.1.total }

/-- No piece begins before the limit and ends after it, where `pos` bytes have come before. -/
def NoneStraddles (cap : ℕ) : ℕ → List Bytes → Prop
  | _, [] => True
  | pos, p :: ps => ¬(pos < cap ∧ cap < pos + p.length) ∧ NoneStraddles cap (pos + p.length) ps

namespace CappedBuffer

/-- The buffer when the bytes `b` have been written. -/
def filled (cap : ℕ) (b : Bytes) : CappedBuffer := ⟨b.take cap, b.length, cap⟩

lemma write_filled {cap : ℕ} {b p : Bytes} (h : ¬(b.length < cap ∧ cap < b.length + p.length)) :
    (filled cap b).write p = (filled cap (b ++ p), p.length) := by
  by_cases hfull : b.length < cap
  · have hrem : cap - b.length > 0 ∧ ¬p.length > cap - b.length := by omega
    have hfit : b.length + p.length ≤ cap := by omega
    simp [write, filled, take_of_length_le hfull.le, hrem, hfit]
  · rw [not_lt] at hfull
    simp [write, filled, hfull]

lemma write_filled_of_straddles {cap : ℕ} {b p : Bytes}
    (h : b.length < cap ∧ cap < b.length + p.length) :
    ((filled cap b).write p).2 < p.length := by
  have hrem : cap - b.length > 0 ∧ p.length > cap - b.length := by omega
  simp [write, filled, take_of_length_le h.1.le, hrem]

lemma noneStraddles_of_copy {cap : ℕ} {b : Bytes} {ps : List Bytes}
    (h : ((filled cap b).copy ps).2 = false) : NoneStraddles cap b.length ps := by
  induction ps generalizing b with
  | nil => trivial
  | cons p ps ih =>
    rw [copy] at h
    by_cases hp : b.length < cap ∧ cap < b.length + p.length
    · rw [if_pos (write_filled_of_straddles hp)] at h
      cases h
    · rw [write_filled hp, if_neg (lt_irrefl _)] at h
      exact ⟨hp, length_append ▸ ih h⟩

/-- **No write is short.** -/
lemma copy_filled {cap : ℕ} {b : Bytes} {ps : List Bytes} (h : NoneStraddles cap b.length ps) :
    (filled cap b).copy ps = (filled cap (b ++ ps.flatten), false) := by
  induction ps generalizing b with
  | nil => simp [copy]
  | cons p ps ih =>
    obtain ⟨hp, hps⟩ := h
    rw [← length_append] at hps
    rw [copy, write_filled hp, if_neg (lt_irrefl _), ih hps, flatten_cons, append_assoc]

end CappedBuffer

lemma truncateBytes_take (limit : Option ℤ) (b : Bytes) :
    truncateBytes (b.take (rnxCaptureLimit limit)) limit = b.take (rnxCaptureLimit limit) := by
  cases limit with
  | none => rfl
  | some limit =>
    simp only [truncateBytes, rnxCaptureLimit]
    split_ifs <;> simp_all
    omega

/-- **No write is short, the output is captured and counted, and the exit status is that of the
command**, if and only if no write straddles the limit of its stream. -/
theorem execute_iff_noneStraddles (stdoutLimit stderrLimit : Option ℤ) (out err : List Bytes)
    (exitCode : ℤ) (timedOut : Bool) :
    (((CappedBuffer.new (rnxCaptureLimit stdoutLimit)).copy out).2 = false ∧
        ((CappedBuffer.new (rnxCaptureLimit stderrLimit)).copy err).2 = false ∧
        executeRNXCommandLocally stdoutLimit stderrLimit out err exitCode timedOut = {
          returnCode := exitCode
          stdout := out.flatten.take (rnxCaptureLimit stdoutLimit)
          stderr := err.flatten.take (rnxCaptureLimit stderrLimit)
          stdoutTotal := out.flatten.length
          stderrTotal := err.flatten.length }) ↔
      NoneStraddles (rnxCaptureLimit stdoutLimit) 0 out ∧
        NoneStraddles (rnxCaptureLimit stderrLimit) 0 err := by
  have hnew cap : CappedBuffer.new cap = .filled cap [] := by
    simp [CappedBuffer.filled, CappedBuffer.new]
  simp only [executeRNXCommandLocally, hnew]
  constructor
  · rintro ⟨hout, herr, -⟩
    exact ⟨CappedBuffer.noneStraddles_of_copy hout, CappedBuffer.noneStraddles_of_copy herr⟩
  · rintro ⟨hout, herr⟩
    rw [CappedBuffer.copy_filled (b := []) hout, CappedBuffer.copy_filled (b := []) herr]
    simp [CappedBuffer.filled, truncateBytes_take]

/-- A limit of two, met exactly. -/
theorem execute_exact : executeRNXCommandLocally (some 2) none [[1, 2], [3]] [] 0 false =
    ⟨0, [1, 2], [], 3, 0⟩ :=
  ((execute_iff_noneStraddles (some 2) none [[1, 2], [3]] [] 0 false).2
    ⟨by simp [NoneStraddles, rnxCaptureLimit, rnxCaptureCap], trivial⟩).2.2

/-- A limit of three is passed within the second write; the third is not counted, and a command that
has succeeded is reported to have failed. -/
theorem execute_straddled :
    executeRNXCommandLocally (some 3) none [[1, 2], [3, 4], [5]] [] 0 false =
      ⟨1, [1, 2, 3], [], 4, 0⟩ := by
  decide

end Reticulum.Rnsutil

import Reticulum.Core.Bytes
import Reticulum.Core.Run

/-!
# Batching what is typed

On a slow link the client of a remote shell collects what is typed and sends it in batches
(`pkg/rgosh/coalesce.go`).  The callback is called under the lock, so nothing is sent twice or out
of order.  But `Close` takes the lock twice, and what is written in between may stay in the buffer.
`CoalescerRun.coalesced`: without such a write, all is sent when `Close` returns.
-/

namespace Reticulum

def Rgosh.Constants.defaultCoalesceWindow : ℤ := 40000000

/-- `flushed` are the arguments of the callback, and `timer` says whether there is a timer. -/
structure Coalescer where
  buf : Bytes
  lineMode : Bool
  window : ℤ
  timer : Bool
  closed : Bool
  flushed : List Bytes
deriving DecidableEq

namespace Coalescer

def new (lineMode : Bool) (window : ℤ) : Coalescer where
  buf := []
  lineMode
  window :=
    if lineMode ∧ window ≤ 0 then Rgosh.Constants.defaultCoalesceWindow
    else if !lineMode ∧ window < 0 then 0
    else window
  timer := false
  closed := false
  flushed := []

variable (c : Coalescer)

def flushUnlocked (p : Bytes) : Coalescer :=
  { c with flushed := c.flushed ++ if p = [] then [] else [p] }

def lastIndexByte (l : Bytes) (b : UInt8) : Option ℕ :=
  (l.reverse.idxOf? b).map (l.length - 1 - ·)

def write (p : Bytes) : Option Coalescer :=
  let buf := c.buf ++ p
  if c.closed then none
  else if !c.lineMode ∧ c.window ≤ 0 then c.flushUnlocked p
  else if c.lineMode then
    match lastIndexByte buf '\n'.toUInt8 with
    | none => some { c with buf }
    | some i => flushUnlocked { c with buf := buf.drop (i + 1) } (buf.take (i + 1))
  else some { c with buf, timer := true }

def drain : Coalescer := flushUnlocked { c with buf := [] } c.buf

def flush : Coalescer := drain { c with timer := false }

def setLineMode (on : Bool) : Coalescer :=
  if on then { c with lineMode := true } else drain { c with lineMode := false }

end Coalescer

/-- A coalescer, what it has accepted, and the calls of `Close` that have flushed and not yet
closed. -/
structure CoalescerRun where
  c : Coalescer
  accepted : Bytes
  closing : ℕ

/-- The sections under the lock.  A timer may expire at any time. -/
inductive CoalescerEvent where
  | write (p : Bytes)
  | flush
  | beginClose
  | endClose
  | setLineMode (on : Bool)
deriving DecidableEq

namespace CoalescerRun

open Coalescer

def new (lineMode : Bool) (window : ℤ) : CoalescerRun := ⟨.new lineMode window, [], 0⟩

def step (s : CoalescerRun) : CoalescerEvent → CoalescerRun
  | .write p => (s.c.write p).elim s fun c => { s with c, accepted := s.accepted ++ p }
  | .flush => { s with c := s.c.flush }
  | .beginClose => { s with c := s.c.flush, closing := s.closing + 1 }
  | .endClose =>
    if s.closing = 0 then s
    else { s with c := { s.c with closed := true }, closing := s.closing - 1 }
  | .setLineMode on => { s with c := s.c.setLineMode on }

def Delivered (s : CoalescerRun) : Prop := s.c.closed → s.c.flushed.flatten = s.accepted

/-- Between the two sections of a `Close`, a write leaves nothing in the buffer, as one in raw mode
does. -/
def Quiet : CoalescerRun → CoalescerEvent → Prop
  | s, .write p => s.closing = 0 ∨ ∀ c ∈ s.c.write p, c.buf = []
  | _, _ => True

structure Inv (s : CoalescerRun) : Prop where
  stream : s.c.flushed.flatten ++ s.c.buf = s.accepted
  raw : s.c.lineMode = false → s.c.window ≤ 0 → s.c.buf = []

def Empty (s : CoalescerRun) : Prop := s.c.closed ∨ 0 < s.closing → s.c.buf = []

variable {s : CoalescerRun} {e : CoalescerEvent}

@[simp] lemma flatten_flushUnlocked (c : Coalescer) (p : Bytes) :
    (c.flushUnlocked p).flushed.flatten = c.flushed.flatten ++ p := by
  rw [flushUnlocked]
  split_ifs with hp <;> simp [hp]

lemma Inv.drain (h : s.Inv) {c : Coalescer} (hflushed : c.flushed = s.c.flushed)
    (hbuf : c.buf = s.c.buf) {n : ℕ} : Inv ⟨c.drain, s.accepted, n⟩ := by
  refine ⟨?_, fun _ _ => rfl⟩
  rw [Coalescer.drain, flatten_flushUnlocked, ← h.stream, hflushed, hbuf]
  exact List.append_nil _

lemma Inv.step (h : s.Inv) (e : CoalescerEvent) : (s.step e).Inv := by
  cases e with
  | write p =>
    simp only [CoalescerRun.step, write]
    split_ifs with hclosed hraw hline
    · exact h
    · -- nothing is in the buffer that should come first
      have hbuf := h.raw (by simpa using hraw.1) hraw.2
      refine ⟨?_, fun _ _ => hbuf⟩
      rw [Option.elim_some, flatten_flushUnlocked, ← h.stream]
      simp [flushUnlocked, hbuf]
    · cases lastIndexByte (s.c.buf ++ p) '\n'.toUInt8 with
      | none => exact ⟨by simp [← h.stream], by simp [hline]⟩
      | some i =>
        refine ⟨?_, by simp [flushUnlocked, hline]⟩
        rw [Option.elim_some, flatten_flushUnlocked, ← h.stream]
        simp [flushUnlocked]
    · exact ⟨by simp [← h.stream], fun _ hwindow => absurd ⟨by simpa using hline, hwindow⟩ hraw⟩
  | flush | beginClose => exact h.drain (by rfl) (by rfl)
  | endClose =>
    rw [CoalescerRun.step]
    split_ifs
    · exact h
    · exact ⟨h.stream, h.raw⟩
  | setLineMode on =>
    cases on with
    | false => exact h.drain (by rfl) (by rfl)
    | true => exact ⟨h.stream, by simp [CoalescerRun.step, setLineMode]⟩

lemma Empty.step (h : s.Empty) (hquiet : s.Quiet e) : (s.step e).Empty := by
  cases e with
  | write p =>
    rcases hquiet with hclosing | hempty
    · -- a write that is accepted finds the coalescer open and no `Close` under way
      simp only [step, write]
      split_ifs with hclosed hraw hline
      · exact h
      · simp [Empty, flushUnlocked, hclosed, hclosing]
      · cases lastIndexByte (s.c.buf ++ p) '\n'.toUInt8 <;>
          simp [Empty, flushUnlocked, hclosed, hclosing]
      · simp [Empty, hclosed, hclosing]
    · rw [step]
      cases hwrite : s.c.write p with
      | none => exact h
      | some c => exact fun _ => hempty c hwrite
  | flush | beginClose => exact fun _ => rfl
  | endClose =>
    rw [step]
    split_ifs with hclosing
    · exact h
    · exact fun _ => h (.inr (Nat.pos_of_ne_zero hclosing))
  | setLineMode on =>
    cases on with
    | false => exact fun _ => rfl
    | true => exact h

/-- **The coalescer loses nothing.**  What is accepted is put out once and in order, and all of it
by the return of `Close` if no write leaves something in the buffer between its two sections. -/
theorem coalesced (lineMode : Bool) (window : ℤ) (es : List CoalescerEvent) :
    Run.Always step (fun s => s.c.flushed.flatten <+: s.accepted) (new lineMode window) es ∧
      (Run.Along step Quiet (new lineMode window) es →
        Run.Always step Delivered (new lineMode window) es) := by
  have hinv : Inv (new lineMode window) := ⟨rfl, fun _ _ => rfl⟩
  constructor
  · refine (Run.always_of_step ?_ hinv es).mono fun s h => ⟨s.c.buf, h.stream⟩
    exact fun _ e h => h.step e
  · intro hquiet
    refine (Run.always_of_along (I := fun s => s.Inv ∧ s.Empty) ?_ ⟨hinv, fun _ => rfl⟩
      hquiet).mono ?_
    · exact fun _ e h he => ⟨h.1.step e, h.2.step he⟩
    · intro s h hclosed
      rw [← h.1.stream, h.2 (.inl hclosed), List.append_nil]

/-- In raw mode a byte that is typed while `Close` is under way is sent. -/
theorem typed_while_closing_raw :
    let es : List CoalescerEvent := [.write [0x62], .beginClose, .write [0x61], .endClose]
    Run.Always step Delivered (new false 0) es ∧
      (Run.exec step (new false 0) es).c.flushed = [[0x62], [0x61]] :=
  ⟨(coalesced false 0 _).2 ⟨.inl rfl, trivial, .inr (by decide), trivial, trivial⟩, rfl⟩

/-- In line mode it is accepted, and never sent. -/
theorem typed_while_closing :
    ¬ Run.Always step Delivered (new true 0) [.beginClose, .write [0x61], .endClose] :=
  mt Run.Always.last (by simp [Delivered]; decide)

end CoalescerRun

end Reticulum

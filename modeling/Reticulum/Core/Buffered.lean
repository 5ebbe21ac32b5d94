import Reticulum.Core.Run

/-!
# A buffered writer over a sink

A **sink** takes the first items of what it is given, says how many these are, and may fail.  A
**buffered writer** collects items and writes its buffer out when it is full; a write that is larger
than the empty buffer goes to the sink directly.  An error is kept and returned by everything after
it.

A direct write goes on after a **short write**, by which the sink takes less than it was given and
reports no error; writing the buffer out makes an error of it: **`whole_iff_fits`**.
-/

namespace Buffered

open List

variable {σ α ε : Type}

/-! ## Sinks -/

/-- Something to write to: what the sink is afterwards, how many items it took and its error.  It
takes something of what is not empty, or fails. -/
structure Sink (σ α ε : Type) where
  write : σ → List α → σ × ℕ × Option ε
  progress : ∀ s p, p ≠ [] → (write s p).2.2 = none → 0 < (write s p).2.1

/-- A sink that never fails, and that holds what it was given up to the items it did not take. -/
structure Sink.Faithful (snk : Sink σ α ε) (content : σ → List α) : Prop where
  err : ∀ s p, (snk.write s p).2.2 = none
  le : ∀ s p, (snk.write s p).2.1 ≤ p.length
  content : ∀ s p, content (snk.write s p).1 = content s ++ p.take (snk.write s p).2.1

/-! ## The writer -/

structure Writer (σ α ε : Type) where
  size : ℕ
  buf : List α
  err : Option ε
  wr : σ
  buf_le : buf.length ≤ size

inductive Op (α : Type) where
  | write (p : List α)
  | flush
deriving DecidableEq

def Op.items : Op α → List α
  | .write p => p
  | .flush => []

namespace Writer

def new (size : ℕ) (wr : σ) : Writer σ α ε := ⟨size, [], none, wr, Nat.zero_le size⟩

def available (b : Writer σ α ε) : ℕ := b.size - b.buf.length

lemma available_of_empty {b : Writer σ α ε} (h : b.buf = []) : b.available = b.size := by
  rw [available, h, length_nil, Nat.sub_zero]

def copy (b : Writer σ α ε) (p : List α) : Writer σ α ε :=
  { b with
    buf := b.buf ++ p.take b.available
    buf_le := by
      have := b.buf_le
      simp only [length_append, length_take, available]
      omega }

/-- `Flush`: the buffer is written out.  If the sink takes less than all of it, what is left stays
in the buffer, and the error is that of the sink or `short`. -/
def flush (snk : Sink σ α ε) (short : ε) (b : Writer σ α ε) : Writer σ α ε :=
  if b.err.isSome || b.buf.isEmpty then b
  else
    let (wr, n, err) := snk.write b.wr b.buf
    let err := if n < b.buf.length && err.isNone then some short else err
    match err with
    | some e =>
      { b with
        wr, err := some e, buf := b.buf.drop n
        buf_le := Nat.le_trans (drop_sublist n b.buf).length_le b.buf_le }
    | none => { b with wr, buf := [], buf_le := Nat.zero_le _ }

lemma buf_flush {snk : Sink σ α ε} {short : ε} {b : Writer σ α ε}
    (h : (b.flush snk short).err = none) : (b.flush snk short).buf = [] := by
  simp only [flush] at h ⊢
  split at h
  next hidle =>
      rw [if_pos hidle]
      simpa [h] using hidle
  next hidle =>
      rw [if_neg hidle]
      split at h
      next => simp at h
      next => rfl

def loop (snk : Sink σ α ε) (short : ε) (b : Writer σ α ε) (p : List α) : Writer σ α ε × List α :=
  if b.available < p.length ∧ b.err.isNone then
    if b.buf.isEmpty then
      -- a large write on an empty buffer is not copied
      let r := snk.write b.wr p
      loop snk short { b with wr := r.1, err := r.2.2 } (p.drop r.2.1)
    else
      loop snk short ((b.copy p).flush snk short) (p.drop b.available)
  else (b, p)
termination_by (if b.err.isNone then p.length + 1 else 0, b.buf.length)
decreasing_by
  · -- the sink fails, or takes something
    rename_i hloop _
    have hp : p ≠ [] := ne_nil_of_length_pos (Nat.zero_lt_of_lt hloop.1)
    apply Prod.Lex.left
    simp only [hloop.2, if_true]
    split_ifs with hnone
    · have hn := snk.progress b.wr p hp (Option.isNone_iff_eq_none.1 hnone)
      simp only [length_drop]
      omega
    · omega
  · -- the flush fails, or empties the buffer
    rename_i hloop hbuf
    simp only [hloop.2, if_true]
    by_cases hnone : ((b.copy p).flush snk short).err = none
    · simp only [hnone, Option.isNone_none, if_true, buf_flush hnone, length_drop,
        length_nil, Prod.lex_def]
      have hlength : 0 < b.buf.length := by
        simpa [length_pos_iff, List.isEmpty_iff] using hbuf
      omega
    · apply Prod.Lex.left
      rw [if_neg (mt Option.isNone_iff_eq_none.1 hnone)]
      omega

def write (snk : Sink σ α ε) (short : ε) (b : Writer σ α ε) (p : List α) : Writer σ α ε × ℕ :=
  let (b, rest) := b.loop snk short p
  let nn := p.length - rest.length
  if b.err.isSome then (b, nn) else (b.copy rest, nn + min b.available rest.length)

/-! ## One operation -/

@[simp] lemma wr_copy (b : Writer σ α ε) (p : List α) : (b.copy p).wr = b.wr := rfl
@[simp] lemma buf_copy (b : Writer σ α ε) (p : List α) :
    (b.copy p).buf = b.buf ++ p.take b.available := rfl

section

variable (snk : Sink σ α ε) (short : ε) {b : Writer σ α ε} {p : List α}

lemma flush_of_empty (h : b.buf = []) : b.flush snk short = b := by
  simp [flush, h]

lemma loop_of_le (h : p.length ≤ b.available) : b.loop snk short p = (b, p) := by
  rw [loop, if_neg (fun hloop => Nat.not_lt.2 h hloop.1)]

lemma loop_of_err (h : b.err ≠ none) : b.loop snk short p = (b, p) := by
  rw [loop, if_neg (fun hloop => h (Option.isNone_iff_eq_none.1 hloop.2))]

lemma loop_of_lt (herr : b.err = none) (hbuf : b.buf ≠ []) (h : b.available < p.length) :
    b.loop snk short p = ((b.copy p).flush snk short).loop snk short (p.drop b.available) := by
  rw [loop, if_pos ⟨h, by simp [herr]⟩, if_neg (by simpa using hbuf)]

lemma err_write (b : Writer σ α ε) (p : List α) :
    (b.write snk short p).1.err = (b.loop snk short p).1.err := by
  simp only [write]
  split <;> rfl

end

def fits (whole : List α → Prop) (b : Writer σ α ε) : Op α → Prop
  | .write p => b.buf = [] ∨ p.length ≤ b.available ∨ whole (b.buf ++ p.take b.available)
  | .flush => b.buf = [] ∨ whole b.buf

/-! ## One operation over a faithful sink -/

section Faithful

variable {snk : Sink σ α ε} {short : ε} {content : σ → List α} {b : Writer σ α ε} {p : List α}
  (hf : snk.Faithful content)
include hf

lemma flush_short (short : ε) (herr : b.err = none)
    (h : (snk.write b.wr b.buf).2.1 < b.buf.length) :
    (b.flush snk short).err = some short ∧
      (b.flush snk short).wr = (snk.write b.wr b.buf).1 := by
  have hbuf : b.buf ≠ [] := ne_nil_of_length_pos (Nat.zero_lt_of_lt h)
  simp [flush, herr, hbuf, hf.err, h]

lemma err_flush (herr : b.err = none) (hbuf : b.buf ≠ []) :
    (b.flush snk short).err = none ↔ (snk.write b.wr b.buf).2.1 = b.buf.length := by
  have hle := hf.le b.wr b.buf
  by_cases hn : (snk.write b.wr b.buf).2.1 < b.buf.length
  · simp [(flush_short hf short herr hn).1, Nat.ne_of_lt hn]
  · simp [flush, herr, hbuf, hf.err, Nat.le_antisymm hle (Nat.not_lt.1 hn)]

lemma content_flush (herr : b.err = none) (h : (b.flush snk short).err = none) :
    content (b.flush snk short).wr = content b.wr ++ b.buf := by
  by_cases hbuf : b.buf = []
  · rw [flush_of_empty snk short hbuf, hbuf, append_nil]
  · have hwhole := (err_flush hf herr hbuf).1 h
    have hwr : (b.flush snk short).wr = (snk.write b.wr b.buf).1 := by
      simp [flush, herr, hbuf, hf.err, hwhole]
    rw [hwr, hf.content, hwhole, take_length]

/-- **Large writes.**  On an empty buffer the loop goes on with what the sink has not taken, until
the rest fits in the buffer; the sink then holds all but the rest. -/
lemma loop_empty (short : ε) (b : Writer σ α ε) (p : List α) (hbuf : b.buf = [])
    (herr : b.err = none) :
    (b.loop snk short p).1.buf = [] ∧ (b.loop snk short p).1.err = none ∧
      (b.loop snk short p).1.size = b.size ∧ (b.loop snk short p).2.length ≤ b.size ∧
      content (b.loop snk short p).1.wr ++ (b.loop snk short p).2 = content b.wr ++ p := by
  fun_induction loop snk short b p with
  | case1 b p hloop hempty r ih =>
    obtain ⟨hbuf', herr', hsize, hrest, hcontent⟩ := ih hbuf (hf.err b.wr p)
    refine ⟨hbuf', herr', hsize, hrest, ?_⟩
    rw [hcontent, hf.content, append_assoc, take_append_drop]
  | case2 b p hloop hempty ih => exact absurd (isEmpty_iff.2 hbuf) hempty
  | case3 b p hloop =>
    refine ⟨hbuf, herr, rfl, ?_, rfl⟩
    rw [← available_of_empty hbuf]
    by_contra hlt
    exact hloop ⟨Nat.not_le.1 hlt, by simp [herr]⟩

lemma loop_content (herr : b.err = none) (h : (b.loop snk short p).1.err = none) :
    (b.loop snk short p).2.length ≤ (b.loop snk short p).1.available ∧
      content (b.loop snk short p).1.wr ++ (b.loop snk short p).1.buf ++ (b.loop snk short p).2 =
        content b.wr ++ b.buf ++ p := by
  by_cases hle : p.length ≤ b.available
  · rw [loop_of_le snk short hle]
    exact ⟨hle, rfl⟩
  by_cases hbuf : b.buf = []
  · obtain ⟨hbuf', -, hsize, hrest, hcontent⟩ := loop_empty hf short b p hbuf herr
    rw [hbuf', hbuf, append_nil, append_nil, available_of_empty hbuf', hsize]
    exact ⟨hrest, hcontent⟩
  -- the buffer is written out, and the loop goes on with an empty one
  rw [loop_of_lt snk short herr hbuf (Nat.not_le.1 hle)] at h ⊢
  have hflush : ((b.copy p).flush snk short).err = none := by
    by_contra hne
    rw [loop_of_err snk short hne] at h
    exact hne h
  obtain ⟨hbuf', -, hsize, hrest, hcontent⟩ :=
    loop_empty hf short _ (p.drop b.available) (buf_flush hflush) hflush
  have hwr : content ((b.copy p).flush snk short).wr = content b.wr ++ (b.copy p).buf :=
    content_flush hf herr hflush
  rw [hbuf', append_nil, hcontent, hwr, available_of_empty hbuf', hsize]
  refine ⟨hrest, ?_⟩
  simp

lemma content_write (herr : b.err = none) (h : (b.write snk short p).1.err = none) :
    content (b.write snk short p).1.wr ++ (b.write snk short p).1.buf =
      content b.wr ++ b.buf ++ p := by
  rw [err_write] at h
  obtain ⟨hrest, hcontent⟩ := loop_content hf herr h
  simp only [write, h, Option.isSome_none, Bool.false_eq_true, if_false, wr_copy, buf_copy,
    take_of_length_le hrest]
  rw [← append_assoc, hcontent]

variable {whole : List α → Prop} (hwhole : ∀ s p, (snk.write s p).2.1 = p.length ↔ whole p)
include hwhole

lemma err_write_iff (herr : b.err = none) :
    (b.write snk short p).1.err = none ↔ b.fits whole (.write p) := by
  rw [err_write, fits]
  by_cases hle : p.length ≤ b.available
  · simp [loop_of_le snk short hle, herr, hle]
  by_cases hbuf : b.buf = []
  · simp [(loop_empty hf short b p hbuf herr).2.1, hbuf]
  have hcopy : (b.copy p).buf ≠ [] := by simp [hbuf]
  have hflush : ((b.copy p).flush snk short).err = none ↔
      (snk.write b.wr (b.copy p).buf).2.1 = (b.copy p).buf.length := err_flush hf herr hcopy
  rw [loop_of_lt snk short herr hbuf (Nat.not_le.1 hle)]
  simp only [hbuf, hle, false_or]
  rw [← buf_copy, ← hwhole b.wr, ← hflush]
  by_cases hnone : ((b.copy p).flush snk short).err = none
  · simp [(loop_empty hf short _ (p.drop b.available) (buf_flush hnone) hnone).2.1, hnone]
  · rw [loop_of_err snk short hnone]

lemma err_flush_iff (herr : b.err = none) :
    (b.flush snk short).err = none ↔ b.fits whole .flush := by
  rw [fits]
  by_cases hbuf : b.buf = []
  · simp [flush_of_empty snk short hbuf, herr, hbuf]
  · rw [err_flush hf herr hbuf, hwhole b.wr]
    simp [hbuf]

end Faithful

/-! ## Runs -/

def step (snk : Sink σ α ε) (short : ε) (b : Writer σ α ε) : Op α → Writer σ α ε
  | .write p => (b.write snk short p).1
  | .flush => b.flush snk short

section Runs

variable {snk : Sink σ α ε} {short : ε} {content : σ → List α} {b : Writer σ α ε}
  {whole : List α → Prop}

section

variable (hf : snk.Faithful content)
include hf

lemma err_step_iff (hwhole : ∀ s p, (snk.write s p).2.1 = p.length ↔ whole p) (herr : b.err = none)
    (op : Op α) : (b.step snk short op).err = none ↔ b.fits whole op := by
  cases op with
  | write p => exact err_write_iff hf hwhole herr
  | flush => exact err_flush_iff hf hwhole herr

/-- **Errors.**  No operation of a run returns an error exactly if what each one writes out of the
buffer is taken whole. -/
theorem no_error_iff_fits (hwhole : ∀ s p, (snk.write s p).2.1 = p.length ↔ whole p)
    (herr : b.err = none) (ops : List (Op α)) :
    Run.Always (step snk short) (fun b => b.err = none) b ops ↔
      Run.Along (step snk short) (fits whole) b ops := by
  apply Run.always_iff_along
  · intro b h
    exact h
  · intro b op h hfits
    exact (err_step_iff hf hwhole h op).2 hfits
  · intro b op h hfits
    exact mt (err_step_iff hf hwhole h op).1 hfits
  · exact herr

lemma content_step (herr : b.err = none) {op : Op α} (h : (b.step snk short op).err = none) :
    content (b.step snk short op).wr ++ (b.step snk short op).buf =
      content b.wr ++ b.buf ++ op.items := by
  cases op with
  | write p => exact content_write hf herr h
  | flush =>
    simp only [step, Op.items] at h ⊢
    rw [buf_flush h, content_flush hf herr h, append_nil]

/-- **Nothing is lost** in a run without an error: it is with the sink or in the buffer. -/
theorem content_exec {ops : List (Op α)}
    (h : Run.Always (step snk short) (fun b => b.err = none) b ops) :
    content (Run.exec (step snk short) b ops).wr ++ (Run.exec (step snk short) b ops).buf =
      content b.wr ++ b.buf ++ ops.flatMap Op.items := by
  induction ops generalizing b with
  | nil => simp
  | cons op ops ih =>
    obtain ⟨herr, hrest⟩ := h
    rw [Run.exec_cons, ih hrest, content_step hf herr hrest.head]
    simp

end

def flushed (ps : List (List α)) : List (Op α) := ps.map .write ++ [.flush]

@[simp] lemma items_flushed (ps : List (List α)) : (flushed ps).flatMap Op.items = ps.flatten := by
  induction ps with
  | nil => rfl
  | cons p ps ih =>
    rw [flushed, map_cons, cons_append, flatMap_cons, ← flushed, ih]
    rfl

/-- **What is written arrives whole.**  Items are written to a new writer, in as many portions as
there are, and flushed.  No error is returned and the sink holds all of them, exactly if what is
written out of the buffer is taken whole each time. -/
theorem whole_iff_fits (hf : snk.Faithful content)
    (hwhole : ∀ s p, (snk.write s p).2.1 = p.length ↔ whole p) (size : ℕ) (wr : σ)
    (ps : List (List α)) :
    (Run.Always (step snk short) (fun b => b.err = none) (new size wr) (flushed ps) ∧
        content (Run.exec (step snk short) (new size wr) (flushed ps)).wr =
          content wr ++ ps.flatten) ↔
      Run.Along (step snk short) (fits whole) (new size wr) (flushed ps) := by
  rw [← no_error_iff_fits hf hwhole rfl]
  refine and_iff_left_of_imp ?_
  intro h
  have hbuf : (Run.exec (step snk short) (new size wr) (flushed ps)).buf = [] := by
    have hlast := h.last
    rw [flushed, Run.exec_append] at hlast ⊢
    exact buf_flush hlast
  have hcontent := content_exec hf h
  rw [hbuf, items_flushed, append_nil] at hcontent
  simpa [new] using hcontent

end Runs

end Writer

end Buffered

import Reticulum.Core.Bytes
import Reticulum.Core.Stuffing

/-!
# KISS framing

A KISS frame begins with a command byte.  `kissStreamDecoder` (`pkg/interfaces/kiss_decoder.go`)
delivers the frames with the data command; `rnodeCmdDecoder` (`pkg/interfaces/rnode_kiss.go`)
delivers all frames.

The first one takes runs of plain bytes at once, and when a run does not fit it resets itself and
**returns**: the rest of the buffer is not looked at (**`KissStreamDecoder.feed_eq`**).  So the cuts
of a stream may matter (**`KissStreamDecoder.run_feed_iff`**).
-/

namespace Reticulum

open List Feed

def kissFend : UInt8 := 0xC0
def kissFesc : UInt8 := 0xDB
def kissTFend : UInt8 := 0xDC
def kissTFesc : UInt8 := 0xDD
def kissCmdData : UInt8 := 0x00
def kissCmdUnknown : UInt8 := 0xFE
def rnodeCmdUnknown : UInt8 := 0xFE

def kissDefaultMTU : ℤ := 1064

def rnodeHWMTU : ℤ := 508

def kissSub (b : UInt8) : UInt8 :=
  if b = kissFend then kissTFend else if b = kissFesc then kissTFesc else b

def kissUnsub (b : UInt8) : UInt8 :=
  if b = kissTFend then kissFend else if b = kissTFesc then kissFesc else b

def kissStuffing : Stuffing UInt8 where
  flag := kissFend
  esc := kissFesc
  sub := kissSub
  unsub := kissUnsub
  esc_ne_flag := by decide
  unsub_sub := by
    rintro a (rfl | rfl) <;> decide
  sub_ne := by
    rintro a (rfl | rfl) <;> decide

/-! ## Frames -/

def rnodeEscape (dst data : Bytes) : Bytes :=
  data.foldl (fun dst b =>
    if b = kissFesc then dst ++ [kissFesc, kissTFesc]
    else if b = kissFend then dst ++ [kissFesc, kissTFend]
    else dst ++ [b]) dst

def appendFrameKISS (dst payload : Bytes) : Bytes :=
  rnodeEscape (dst ++ [kissFend, kissCmdData]) payload ++ [kissFend]

def appendRNodeFrame (dst : Bytes) (cmd : UInt8) (payload : Bytes) : Bytes :=
  rnodeEscape (dst ++ [kissFend, cmd]) payload ++ [kissFend]

lemma stuff_kiss (b : UInt8) :
    kissStuffing.stuff b =
      if b = kissFesc then [kissFesc, kissTFesc]
      else if b = kissFend then [kissFesc, kissTFend] else [b] := by
  by_cases hfesc : b = kissFesc
  · subst hfesc
    decide
  by_cases hfend : b = kissFend
  · subst hfend
    decide
  simp [Stuffing.stuff, kissStuffing, hfesc, hfend]

lemma rnodeEscape_eq (dst data : Bytes) :
    rnodeEscape dst data = dst ++ kissStuffing.encode data := by
  induction data generalizing dst with
  | nil => simp [rnodeEscape]
  | cons b data ih =>
    rw [rnodeEscape, foldl_cons, ← rnodeEscape, ih, kissStuffing.encode_cons, stuff_kiss]
    split_ifs
    · simp
    · simp
    · simp

/-! ## The decoder of TCP and I2P -/

structure KissStreamDecoder where
  mtu : ℤ
  inFrame : Bool
  escape : Bool
  haveCmd : Bool
  command : UInt8
  data : Bytes
deriving DecidableEq

def newKISSStreamDecoder (mtu : ℤ) : KissStreamDecoder where
  mtu := if mtu ≤ 0 then kissDefaultMTU else mtu
  inFrame := false
  escape := false
  haveCmd := false
  command := kissCmdUnknown
  data := []

namespace KissStreamDecoder

def reset (d : KissStreamDecoder) : KissStreamDecoder :=
  { d with
    inFrame := false, escape := false, haveCmd := false, command := kissCmdUnknown, data := [] }

def collecting (d : KissStreamDecoder) : Bool :=
  d.inFrame ∧ d.haveCmd ∧ d.command = kissCmdData

def feedByte (d : KissStreamDecoder) (b : UInt8) : KissStreamDecoder × List Bytes :=
  if b = kissFend ∧ d.collecting then (d.reset, [d.data])
  else if b = kissFend then
    ({ d with
      inFrame := true, command := kissCmdUnknown, haveCmd := false, data := [], escape := false },
      [])
  else if !d.inFrame then (d, [])
  else if !d.haveCmd then ({ d with command := b &&& 0x0F, haveCmd := true }, [])
  else if d.command ≠ kissCmdData then (d, [])
  else if d.mtu ≤ d.data.length then (d.reset, [])
  else if b = kissFesc then ({ d with escape := true }, [])
  else
    let b := if d.escape then kissUnsub b else b
    ({ d with data := d.data ++ [b], escape := false }, [])

/-- The loop of `feed`.  As each pass takes a byte at least, the length of the buffer is enough for
`n`. -/
def feedLoop : ℕ → KissStreamDecoder → Bytes → KissStreamDecoder × List Bytes
  | 0, d, _ => (d, [])
  | _ + 1, d, [] => (d, [])
  | n + 1, d, b :: rest =>
    let buf := b :: rest
    if d.escape then andThen (d.feedByte b) fun d => feedLoop n d rest
    else if !d.collecting then andThen (d.feedByte b) fun d => feedLoop n d rest
    else
      let next := kissStuffing.next buf
      if 0 < next then
        -- the rest of the buffer is dropped with the frame
        if d.mtu < d.data.length + next then (d.reset, [])
        else feedLoop n { d with data := d.data ++ buf.take next } (buf.drop next)
      else andThen (d.feedByte b) fun d => feedLoop n d rest

def feed (d : KissStreamDecoder) (buf : Bytes) : KissStreamDecoder × List Bytes :=
  feedLoop buf.length d buf

/-! ### What the loop does with a buffer -/

/-- A plain byte of a data frame that has as many bytes as the MTU allows. -/
def outgrows (d : KissStreamDecoder) (b : UInt8) : Bool :=
  d.collecting ∧ d.escape = false ∧ b ≠ kissFend ∧ b ≠ kissFesc ∧ d.mtu ≤ d.data.length

/-- The bytes one by one, up to one at which a frame outgrows the MTU. -/
def feedUpTo (d : KissStreamDecoder) : Bytes → KissStreamDecoder × List Bytes
  | [] => (d, [])
  | b :: bs =>
    if d.outgrows b then (d.reset, []) else andThen (d.feedByte b) fun d => feedUpTo d bs

def dropped (d : KissStreamDecoder) : Bytes → Bytes
  | [] => []
  | b :: bs => if d.outgrows b then bs else dropped (d.feedByte b).1 bs

variable {d : KissStreamDecoder} {buf : Bytes} {e : KissStreamDecoder} {chunks : List Bytes}
  {b : UInt8}

lemma outgrows_iff : d.outgrows b ↔
      d.collecting ∧ d.escape = false ∧ b ≠ kissFend ∧ b ≠ kissFesc ∧ d.mtu ≤ d.data.length := by
  simp [outgrows]

lemma feedByte_plain (hcoll : d.collecting) (hesc : d.escape = false)
    (hb : b ≠ kissFend ∧ b ≠ kissFesc) : d.feedByte b =
      (if d.mtu ≤ d.data.length then d.reset else { d with data := d.data ++ [b] }, []) := by
  have hc := hcoll
  simp only [collecting, decide_eq_true_eq] at hc
  by_cases hfull : d.mtu ≤ d.data.length
  · simp [feedByte, hb.1, hc.1, hc.2.1, hc.2.2, hfull]
  · simp [feedByte, hb.1, hb.2, hc.1, hc.2.1, hc.2.2, hesc, hfull]

lemma feedUpTo_run (hcoll : d.collecting) (hesc : d.escape = false) (run : Bytes)
    (hne : run ≠ []) (hrun : ∀ b ∈ run, b ≠ kissFend ∧ b ≠ kissFesc) (rest : Bytes) :
    d.feedUpTo (run ++ rest) = if d.mtu < d.data.length + run.length then (d.reset, [])
      else feedUpTo { d with data := d.data ++ run } rest := by
  induction run generalizing d with
  | nil => exact absurd rfl hne
  | cons b run ih =>
    have hb := hrun b mem_cons_self
    rw [cons_append, feedUpTo]
    by_cases hfull : d.mtu ≤ d.data.length
    · have hlong : d.mtu < d.data.length + (b :: run).length := by
        rw [length_cons]
        omega
      rw [if_pos (outgrows_iff.2 ⟨hcoll, hesc, hb.1, hb.2, hfull⟩), if_pos hlong]
    · have hfits : ¬ d.outgrows b := fun h => hfull (outgrows_iff.1 h).2.2.2.2
      rw [if_neg hfits, feedByte_plain hcoll hesc hb, if_neg hfull, andThen_nil]
      by_cases hnil : run = []
      · subst hnil
        have hshort : ¬ d.mtu < d.data.length + [b].length := by
          rw [length_singleton]
          omega
        rw [if_neg hshort, nil_append]
      · rw [ih (d := { d with data := d.data ++ [b] }) hcoll hesc hnil
          fun a ha => hrun a (mem_cons_of_mem b ha)]
        refine if_congr ?_ rfl ?_
        · simp only [length_append, length_cons, length_nil]
          omega
        · simp

lemma feedLoop_eq {n : ℕ} (hn : buf.length ≤ n) : feedLoop n d buf = d.feedUpTo buf := by
  induction n generalizing d buf with
  | zero =>
    have hnil : buf = [] := eq_nil_of_length_eq_zero (Nat.le_zero.1 hn)
    rw [hnil]
    rfl
  | succ n ih =>
    cases buf with
    | nil => rfl
    | cons b rest =>
      have hbyte : ¬ d.outgrows b →
          (andThen (d.feedByte b) fun d => feedLoop n d rest) =
            d.feedUpTo (b :: rest) := by
        intro hfits
        simp [feedUpTo, if_neg hfits, ih (Nat.le_of_succ_le_succ hn)]
      set next := kissStuffing.next (b :: rest)
      have hlen : ((b :: rest).take next).length = next :=
        length_take_of_le (kissStuffing.next_le_length _)
      have hsplit : ¬ d.escape → ¬ (!d.collecting) → 0 < next →
          d.feedUpTo (b :: rest) =
            if d.mtu < d.data.length + next then (d.reset, [])
            else feedUpTo { d with data := d.data ++ (b :: rest).take next }
              ((b :: rest).drop next) := by
        intro hesc hcoll hnext
        have hrun := feedUpTo_run (by simpa using hcoll) (by simpa using hesc)
          ((b :: rest).take next) (by simpa using hnext.ne')
          (fun a ha => kissStuffing.plain_of_mem_take ha) ((b :: rest).drop next)
        rwa [take_append_drop, hlen] at hrun
      simp only [feedLoop]
      split_ifs with hesc hcoll hnext hlong
      · refine hbyte fun hout => ?_
        simp [(outgrows_iff.1 hout).2.1] at hesc
      · refine hbyte fun hout => ?_
        simp [(outgrows_iff.1 hout).1] at hcoll
      · rw [hsplit hesc hcoll hnext, if_pos hlong]
      · rw [hsplit hesc hcoll hnext, if_neg hlong, ih]
        rw [length_drop]
        omega
      · refine hbyte fun hout => hnext ?_
        obtain ⟨-, -, hfend, hfesc, -⟩ := outgrows_iff.1 hout
        exact kissStuffing.next_pos hfend hfesc rest

/-- **The loop takes the bytes of a buffer one by one**, up to one at which a frame outgrows the
MTU; what comes after that one is dropped. -/
theorem feed_eq (d : KissStreamDecoder) (buf : Bytes) : d.feed buf = d.feedUpTo buf :=
  feedLoop_eq le_rfl

/-! ### Streams in chunks -/

def Fits (d : KissStreamDecoder) (buf : Bytes) : Prop :=
  Run.Along (fun d b => (feedByte d b).1) (fun d b => ¬ d.outgrows b = true) d buf

instance decidableFits (d : KissStreamDecoder) (buf : Bytes) : Decidable (d.Fits buf) :=
  Run.decidableAlong d buf

lemma feedUpTo_of_fits (h : d.Fits buf) : d.feedUpTo buf = run feedByte d buf := by
  induction buf generalizing d with
  | nil => rfl
  | cons b buf ih =>
    rw [feedUpTo, if_neg h.1, run_cons, andThen, andThen, ih h.2]

/-- **A stream without a frame that outgrows the MTU** is taken byte by byte, wherever it is cut. -/
theorem run_feed_of_fits (h : d.Fits chunks.flatten) :
    run feed d chunks = run feedByte d chunks.flatten := by
  induction chunks generalizing d with
  | nil => rfl
  | cons c chunks ih =>
    rw [flatten_cons, Fits, Run.along_append, ← run_fst] at h
    rw [run_cons, feed_eq, feedUpTo_of_fits h.1, flatten_cons, run_append, andThen, andThen, ih h.2]

lemma mtu_feedByte (d : KissStreamDecoder) (b : UInt8) : (d.feedByte b).1.mtu = d.mtu := by
  rw [feedByte]
  split_ifs <;> rfl

lemma mtu_run (d : KissStreamDecoder) (bs : Bytes) : (run feedByte d bs).1.mtu = d.mtu := by
  rw [run_fst]
  refine Run.exec_of_step (I := fun e : KissStreamDecoder => e.mtu = d.mtu) ?_ rfl bs
  intro e b he
  exact (e.mtu_feedByte b).trans he

lemma reset_congr (h : d.mtu = e.mtu) : d.reset = e.reset := by
  simp [reset, h]

lemma reset_feedByte (d : KissStreamDecoder) (b : UInt8) : (d.feedByte b).1.reset = d.reset :=
  reset_congr (d.mtu_feedByte b)

lemma feedByte_of_outgrows (h : d.outgrows b) : d.feedByte b = (d.reset, []) := by
  obtain ⟨hcoll, hesc, hfend, hfesc, hfull⟩ := outgrows_iff.1 h
  rw [feedByte_plain hcoll hesc ⟨hfend, hfesc⟩, if_pos hfull]

/-- Byte by byte there comes what comes of the buffer, and then what comes of the bytes that are
dropped. -/
lemma run_eq_feedUpTo (d : KissStreamDecoder) (buf : Bytes) : (run feedByte d buf).2 =
      (d.feedUpTo buf).2 ++ (run feedByte d.reset (d.dropped buf)).2 := by
  induction buf generalizing d with
  | nil => rfl
  | cons b buf ih =>
    rw [run_cons, feedUpTo, dropped]
    by_cases hout : d.outgrows b
    · rw [if_pos hout, if_pos hout, feedByte_of_outgrows hout]
      rfl
    · rw [if_neg hout, if_neg hout, andThen, andThen, ih, reset_feedByte, append_assoc]

lemma dropped_append (d : KissStreamDecoder) (buf rest : Bytes) : d.dropped (buf ++ rest) =
      if d.Fits buf then (run feedByte d buf).1.dropped rest else d.dropped buf ++ rest := by
  induction buf generalizing d with
  | nil => simp [Fits]
  | cons b buf ih =>
    have hfits : d.Fits (b :: buf) ↔ ¬ d.outgrows b ∧ (d.feedByte b).1.Fits buf := .rfl
    simp only [cons_append, dropped, hfits, ih]
    by_cases hout : d.outgrows b
    · simp [hout]
    · simp [hout, andThen]

/-- A buffer with a frame that outgrows the MTU leaves the decoder outside, and what follows in the
same buffer makes no difference. -/
lemma feedUpTo_of_not_fits (h : ¬ d.Fits buf) (rest : Bytes) :
    d.feedUpTo (buf ++ rest) = d.feedUpTo buf ∧ (d.feedUpTo buf).1 = d.reset := by
  induction buf generalizing d with
  | nil => exact absurd (Run.along_nil _ _) h
  | cons b buf ih =>
    rw [cons_append, feedUpTo, feedUpTo]
    split_ifs with hout
    · exact ⟨rfl, rfl⟩
    · obtain ⟨hrest, hreset⟩ := ih fun hfits => h ⟨hout, hfits⟩
      rw [andThen, andThen, hrest, hreset]
      exact ⟨rfl, d.reset_feedByte b⟩

/-- A decoder that is outside is never ahead of one that is not: until the other one delivers, they
are in the same state or the first one still waits for a frame. -/
def Behind (d e : KissStreamDecoder) : Prop := d.mtu = e.mtu ∧ (d = e ∨ d.inFrame = false)

lemma Behind.feedByte (h : Behind d e) (hsilent : (e.feedByte b).2 = []) :
    Behind (d.feedByte b).1 (e.feedByte b).1 ∧ (d.feedByte b).2 = [] := by
  obtain ⟨hmtu, rfl | hframe⟩ := h
  · exact ⟨⟨rfl, .inl rfl⟩, hsilent⟩
  · by_cases hfend : b = kissFend
    · subst hfend
      have hout : ¬ d.collecting := by simp [collecting, hframe]
      have hcoll : ¬ e.collecting := by
        intro hcoll
        simp [KissStreamDecoder.feedByte, hcoll] at hsilent
      simp [Behind, KissStreamDecoder.feedByte, hcoll, hmtu, hout]
    · have hstay : d.feedByte b = (d, []) := by
        simp [KissStreamDecoder.feedByte, hfend, hframe]
      rw [hstay]
      exact ⟨⟨hmtu.trans (e.mtu_feedByte b).symm, .inr hframe⟩, rfl⟩

lemma Behind.feedUpTo (h : Behind d e) (hsilent : (run KissStreamDecoder.feedByte e buf).2 = []) :
    Behind (d.feedUpTo buf).1 (run KissStreamDecoder.feedByte e buf).1 ∧
      (d.feedUpTo buf).2 = [] := by
  induction buf generalizing d e with
  | nil => exact ⟨h, rfl⟩
  | cons b buf ih =>
    obtain ⟨hfirst, hrest⟩ := append_eq_nil_iff.1 hsilent
    obtain ⟨hbehind, hnone⟩ := h.feedByte hfirst
    obtain ⟨hbehind', hnone'⟩ := ih hbehind hrest
    rw [feedUpTo]
    split_ifs with hout
    · exact ⟨⟨h.1.trans (e.mtu_run (b :: buf)).symm, .inr rfl⟩, rfl⟩
    · refine ⟨hbehind', ?_⟩
      rw [andThen, hnone, hnone', append_nil]

lemma Behind.run_feed (h : Behind d e)
    (hsilent : (run KissStreamDecoder.feedByte e chunks.flatten).2 = []) :
    (run feed d chunks).2 = [] := by
  induction chunks generalizing d e with
  | nil => rfl
  | cons c chunks ih =>
    rw [flatten_cons, run_append] at hsilent
    obtain ⟨hfirst, hrest⟩ := append_eq_nil_iff.1 hsilent
    obtain ⟨hbehind, hnone⟩ := h.feedUpTo hfirst
    rw [run_cons, feed_eq, andThen, hnone, ih hbehind hrest, append_nil]

/-- If no frame is complete after the first byte at which a frame outgrows the MTU, the cuts do not
matter. -/
lemma run_feed_of_dropped (h : (run feedByte d.reset (d.dropped chunks.flatten)).2 = []) :
    (run feed d chunks).2 = (run feedByte d chunks.flatten).2 := by
  induction chunks generalizing d with
  | nil => rfl
  | cons c chunks ih =>
    rw [flatten_cons] at h ⊢
    by_cases hfits : d.Fits c
    · rw [dropped_append, if_pos hfits, ← reset_congr (d.mtu_run c)] at h
      rw [run_cons, feed_eq, feedUpTo_of_fits hfits, run_append, andThen, andThen, ih h]
    · -- the rest of this chunk is dropped, and nothing comes of the others
      obtain ⟨hsame, hreset⟩ := feedUpTo_of_not_fits hfits chunks.flatten
      have hbytes : (run feedByte d (c ++ chunks.flatten)).2 = (d.feedUpTo c).2 := by
        rw [run_eq_feedUpTo, h, hsame, append_nil]
      rw [dropped_append, if_neg hfits, run_append] at h
      obtain ⟨-, hrest⟩ := append_eq_nil_iff.1 h
      have hbehind : Behind d.reset (run feedByte d.reset (d.dropped c)).1 :=
        ⟨(d.reset.mtu_run _).symm, .inr rfl⟩
      rw [run_cons, feed_eq, andThen, hreset, hbehind.run_feed hrest, append_nil, hbytes]

section

variable (d : KissStreamDecoder)

/-- **When the cuts do not matter**: exactly if no frame is complete after the first byte at which a
frame outgrows the MTU. -/
theorem run_feed_iff (stream : Bytes) : (∀ chunks : List Bytes, chunks.flatten = stream →
      (run feed d chunks).2 = (run feedByte d stream).2) ↔
    (run feedByte d.reset (d.dropped stream)).2 = [] := by
  constructor
  · intro h
    have hone := h [stream] (by simp)
    rw [run_singleton, feed_eq, run_eq_feedUpTo] at hone
    exact self_eq_append_right.1 hone
  · rintro h chunks rfl
    exact run_feed_of_dropped h

/-! ### The reader that the decoder is -/

def reader : CommandReader UInt8 UInt8 Bytes where
  toStuffing := kissStuffing
  command b := b &&& 0x0F
  wants c := c = kissCmdData
  item _ data := data
  limit := d.mtu

def abs : CommandState UInt8 UInt8 :=
  if !d.inFrame then .outside else if !d.haveCmd then .opened else .inside d.command d.data d.escape

def Fresh : Prop :=
  d.inFrame = true → d.haveCmd = false → d.data = [] ∧ d.escape = false

lemma reader_feedByte (b : UInt8) : (d.feedByte b).1.reader = d.reader := by
  rw [reader, reader, mtu_feedByte]

end

lemma fresh_feedByte (hd : d.Fresh) (b : UInt8) : (d.feedByte b).1.Fresh := by
  rw [feedByte]
  split_ifs <;> simp_all [Fresh, reset]

/-- **Byte by byte the decoder is a reader of frames with a command.** -/
theorem sim {R : CommandReader UInt8 UInt8 Bytes} (d : KissStreamDecoder) (b : UInt8)
    (hd : d.reader = R ∧ d.Fresh) :
    ((d.feedByte b).1.reader = R ∧ (d.feedByte b).1.Fresh) ∧
      R.step d.abs b = ((d.feedByte b).1.abs, (d.feedByte b).2) := by
  obtain ⟨rfl, hfresh⟩ := hd
  refine ⟨⟨d.reader_feedByte b, fresh_feedByte hfresh b⟩, ?_⟩
  by_cases hfend : b = kissFend
  · subst hfend
    rw [show d.reader.step d.abs kissFend = _ from CommandReader.step_flag d.abs]
    cases hframe : d.inFrame <;> cases hcmd : d.haveCmd <;>
      by_cases hdata : d.command = kissCmdData <;>
      simp [feedByte, collecting, abs, reader, CommandReader.stepFlag, reset, hframe, hcmd, hdata]
  · simp only [feedByte, abs, CommandReader.step, reader, kissStuffing, hfend]
    cases hframe : d.inFrame with
    | false => simp [hframe]
    | true =>
      cases hcmd : d.haveCmd with
      | false =>
        obtain ⟨hdata, hesc⟩ := hfresh hframe hcmd
        simp [hdata, hesc]
      | true =>
        by_cases hdata : d.command = kissCmdData
        · by_cases hfull : d.mtu ≤ d.data.length
          · simp [hdata, hfull, reset]
          · rcases eq_or_ne b kissFesc with rfl | hesc
            · simp [hdata, hfull]
            · simp [hdata, hfull, hesc]
        · simp [hframe, hcmd, hdata]

lemma run_reader (hd : d.Fresh) (bs : Bytes) :
    ((run feedByte d bs).1.reader = d.reader ∧ (run feedByte d bs).1.Fresh) ∧
      run d.reader.step d.abs bs =
        ((run feedByte d bs).1.abs, (run feedByte d bs).2) :=
  run_sim sim ⟨rfl, hd⟩ bs

/-- **When nothing comes of the bytes** after a reset: exactly if no complete frame stands in
them. -/
lemma run_reset_iff (d : KissStreamDecoder) (bs : Bytes) :
    (run feedByte d.reset bs).2 = [] ↔ ¬ d.reader.HasFrame bs := by
  have hfresh : d.reset.Fresh := by
    intro hframe
    cases hframe
  have hout := congrArg Prod.snd (run_reader hfresh bs).2
  have hgives := CommandReader.run_ne_nil_iff (R := d.reader) .outside bs
  rw [← hout, ← not_iff_not, not_not]
  exact hgives

lemma fresh_feed {d₀ : KissStreamDecoder} (hd : d.reader = d₀.reader ∧ d.Fresh) (buf : Bytes) :
    (d.feed buf).1.reader = d₀.reader ∧ (d.feed buf).1.Fresh := by
  rw [feed_eq]
  by_cases hfits : d.Fits buf
  · obtain ⟨⟨hreader, hfresh⟩, -⟩ := run_reader hd.2 buf
    rw [feedUpTo_of_fits hfits]
    exact ⟨hreader.trans hd.1, hfresh⟩
  · rw [(feedUpTo_of_not_fits hfits []).2]
    refine ⟨hd.1, ?_⟩
    intro hframe
    cases hframe

lemma fresh_run_feed (hd : d.Fresh) (chunks : List Bytes) :
    (run feed d chunks).1.reader = d.reader ∧ (run feed d chunks).1.Fresh := by
  rw [run_fst]
  refine Run.exec_of_step (I := fun e : KissStreamDecoder => e.reader = d.reader ∧ e.Fresh) ?_
    ⟨rfl, hd⟩ chunks
  intro e buf he
  exact fresh_feed he buf

lemma feed_singleton (d : KissStreamDecoder) (b : UInt8) : d.feed [b] = d.feedByte b := by
  rw [feed_eq, feedUpTo]
  split_ifs with hout
  · rw [feedByte_of_outgrows hout]
  · simp [feedUpTo, andThen]

lemma fits_of_reader (hd : d.Fresh) {bs : Bytes} (h : d.reader.Fits d.abs bs) : d.Fits bs := by
  refine along_sim sim ?_
    ⟨rfl, hd⟩ h
  rintro e b ⟨hreader, -⟩ hroom hout
  obtain ⟨hcoll, -, hfend, -, hfull⟩ := outgrows_iff.1 hout
  simp only [collecting, decide_eq_true_eq] at hcoll
  refine hroom hfend ⟨e.command, e.data, e.escape, ?_, ?_, ?_⟩
  · simp [abs, hcoll.1, hcoll.2.1]
  · simp [reader, hcoll.2.2]
  · rw [← hreader]
    exact hfull

end KissStreamDecoder

/-! ## The decoder of RNodes -/

structure RnodeCmdDecoder where
  mtu : ℤ
  inFrame : Bool
  escape : Bool
  command : UInt8
  haveCmd : Bool
  data : Bytes
deriving DecidableEq

def newRNodeCmdDecoder (mtu : ℤ) : RnodeCmdDecoder where
  mtu := if mtu ≤ 0 then rnodeHWMTU else mtu
  inFrame := false
  escape := false
  command := rnodeCmdUnknown
  haveCmd := false
  data := []

namespace RnodeCmdDecoder

section

variable (d : RnodeCmdDecoder)

def reset : RnodeCmdDecoder :=
  { d with
    inFrame := false, escape := false, haveCmd := false, command := rnodeCmdUnknown, data := [] }

def feedByte (b : UInt8) : RnodeCmdDecoder × List (UInt8 × Bytes) :=
  if d.inFrame ∧ b = kissFend ∧ d.haveCmd then (d.reset, [(d.command, d.data)])
  else if b = kissFend then
    ({ d with
      inFrame := true, command := rnodeCmdUnknown, haveCmd := false, data := [], escape := false },
      [])
  else if !d.inFrame then (d, [])
  else if !d.haveCmd then ({ d with command := b, haveCmd := true }, [])
  else if d.mtu ≤ d.data.length then (d.reset, [])
  else if b = kissFesc then ({ d with escape := true }, [])
  else
    let b := if d.escape then kissUnsub b else b
    ({ d with data := d.data ++ [b], escape := false }, [])

def feed (buf : Bytes) : RnodeCmdDecoder × List (UInt8 × Bytes) :=
  run feedByte d buf

def reader : CommandReader UInt8 UInt8 (UInt8 × Bytes) where
  toStuffing := kissStuffing
  command b := b
  wants _ := true
  item cmd data := (cmd, data)
  limit := d.mtu

def abs : CommandState UInt8 UInt8 :=
  if !d.inFrame then .outside else if !d.haveCmd then .opened else .inside d.command d.data d.escape

def Fresh : Prop :=
  d.inFrame = true → d.haveCmd = false → d.data = [] ∧ d.escape = false

end

variable {d : RnodeCmdDecoder}

lemma reader_feedByte (d : RnodeCmdDecoder) (b : UInt8) : (d.feedByte b).1.reader = d.reader := by
  rw [feedByte]
  split_ifs <;> rfl

lemma fresh_feedByte (hd : d.Fresh) (b : UInt8) : (d.feedByte b).1.Fresh := by
  rw [feedByte]
  split_ifs <;> simp_all [Fresh, reset]

/-- **Byte by byte the decoder is a reader of frames with a command.** -/
theorem sim {R : CommandReader UInt8 UInt8 (UInt8 × Bytes)} (d : RnodeCmdDecoder) (b : UInt8)
    (hd : d.reader = R ∧ d.Fresh) :
    ((d.feedByte b).1.reader = R ∧ (d.feedByte b).1.Fresh) ∧
      R.step d.abs b = ((d.feedByte b).1.abs, (d.feedByte b).2) := by
  obtain ⟨rfl, hfresh⟩ := hd
  refine ⟨⟨d.reader_feedByte b, fresh_feedByte hfresh b⟩, ?_⟩
  by_cases hfend : b = kissFend
  · subst hfend
    rw [show d.reader.step d.abs kissFend = _ from CommandReader.step_flag d.abs]
    cases hframe : d.inFrame <;> cases hcmd : d.haveCmd <;>
      simp [feedByte, abs, reader, CommandReader.stepFlag, reset, hframe, hcmd]
  · simp only [feedByte, abs, CommandReader.step, reader, kissStuffing, hfend]
    cases hframe : d.inFrame with
    | false => simp [hframe]
    | true =>
      cases hcmd : d.haveCmd with
      | false =>
        obtain ⟨hdata, hesc⟩ := hfresh hframe hcmd
        simp [hdata, hesc]
      | true =>
        by_cases hfull : d.mtu ≤ d.data.length
        · simp [hfull, reset]
        · rcases eq_or_ne b kissFesc with rfl | hesc
          · simp [hfull]
          · simp [hfull, hesc]

lemma run_reader (hd : d.Fresh) (bs : Bytes) :
    ((run feedByte d bs).1.reader = d.reader ∧ (run feedByte d bs).1.Fresh) ∧
      run d.reader.step d.abs bs =
        ((run feedByte d bs).1.abs, (run feedByte d bs).2) :=
  run_sim sim ⟨rfl, hd⟩ bs

lemma run_feed (d : RnodeCmdDecoder) (chunks : List Bytes) :
    run feed d chunks = run feedByte d chunks.flatten :=
  run_chunks (fun _ _ _ => rfl)
    (Run.along_of_forall fun _ _ => trivial)

end RnodeCmdDecoder

end Reticulum

import Reticulum.Core.Bytes
import Reticulum.Core.Stuffing

/-!
# HDLC framing

Two packages frame packets with flags, and decode them with a machine of their own:
`hdlcStreamDecoder` (`pkg/interfaces/hdlc_decoder.go`) and `HDLCDecoder` of the backbone
(`pkg/backbone/hdlc.go`).  Byte by byte both are readers of frames between flags
(**`HdlcStreamDecoder.sim`**, **`HDLCDecoder.sim`**).

The first one has three modes.  *Plain*, each flag ends a frame and begins the next; with *toggling*
flags, as on TCP, every other flag ends a frame; and the TCP mode also rejects payloads that are no
longer than a header.
-/

namespace Reticulum

open List Feed

def hdlcFlag : UInt8 := 0x7E
def hdlcEsc : UInt8 := 0x7D
def hdlcEscMask : UInt8 := 0x20

def reticulumHeaderMinSize : ℤ := 19

/-- The substitute of a byte is the byte with one bit flipped. -/
def hdlcStuffing : Stuffing UInt8 where
  flag := hdlcFlag
  esc := hdlcEsc
  sub b := b ^^^ hdlcEscMask
  unsub b := b ^^^ hdlcEscMask
  esc_ne_flag := by decide
  unsub_sub a _ := by
    rw [UInt8.xor_assoc, UInt8.xor_self, UInt8.xor_zero]
  sub_ne := by
    rintro a (rfl | rfl) <;> decide

/-! ## Frames -/

/-- Both packages have this loop, the interfaces inside `appendFrameHDLC`. -/
def appendEscapeHDLC (dst data : Bytes) : Bytes :=
  data.foldl (fun dst b =>
    if b = hdlcFlag ∨ b = hdlcEsc then dst ++ [hdlcEsc, b ^^^ hdlcEscMask] else dst ++ [b]) dst

def appendFrameHDLC (dst payload : Bytes) : Bytes :=
  appendEscapeHDLC (dst ++ [hdlcFlag]) payload ++ [hdlcFlag]

lemma appendEscapeHDLC_eq (dst data : Bytes) :
    appendEscapeHDLC dst data = dst ++ hdlcStuffing.encode data := by
  induction data generalizing dst with
  | nil => simp [appendEscapeHDLC]
  | cons b data ih =>
    have hstuff : hdlcStuffing.stuff b =
        if b = hdlcFlag ∨ b = hdlcEsc then [hdlcEsc, b ^^^ hdlcEscMask] else [b] := rfl
    rw [appendEscapeHDLC, foldl_cons, ← appendEscapeHDLC, ih, hdlcStuffing.encode_cons, hstuff]
    split_ifs with hb
    · simp
    · simp

/-! ## The loop over a buffer -/

section Loop

variable {σ : Type}

/-- The loop of `feed`.  A pass of it takes one byte, or skips to the next flag, or takes a run of
bytes up to the next flag or escape byte.  As each pass takes a byte at least, the length of the
buffer is enough for `n`. -/
def hdlcLoop (escape inFrame : σ → Bool) (feedByte : σ → UInt8 → σ × List Bytes)
    (appendRun : σ → Bytes → σ) : ℕ → σ → Bytes → σ × List Bytes
  | 0, d, _ => (d, [])
  | _ + 1, d, [] => (d, [])
  | n + 1, d, b :: rest =>
    let buf := b :: rest
    let loop := hdlcLoop escape inFrame feedByte appendRun n
    if escape d then andThen (feedByte d b) fun d => loop d rest
    else if !inFrame d then
      let i := buf.idxOf hdlcFlag
      if i = buf.length then (d, [])
      else andThen (feedByte d hdlcFlag) fun d => loop d (buf.drop (i + 1))
    else
      let next := hdlcStuffing.next buf
      if 0 < next then loop (appendRun d (buf.take next)) (buf.drop next)
      else andThen (feedByte d b) fun d => loop d rest

/-- What the two decoders have in common: outside of frames all bytes but flags are passed over, and
a run of plain bytes inside of one is taken as its bytes are, up to the one that does not fit. -/
structure TakesRuns (escape inFrame : σ → Bool) (feedByte : σ → UInt8 → σ × List Bytes)
    (appendRun : σ → Bytes → σ) : Prop where
  skip : ∀ d b, inFrame d = false → b ≠ hdlcFlag → feedByte d b = (d, [])
  plain : ∀ d b, inFrame d = true → escape d = false → b ≠ hdlcFlag → b ≠ hdlcEsc →
    feedByte d b = (appendRun d [b], []) ∧ escape (appendRun d [b]) = false
  cons : ∀ d b run, inFrame d = true → run ≠ [] → appendRun d (b :: run) =
    if inFrame (appendRun d [b]) then appendRun (appendRun d [b]) run else appendRun d [b]

variable {escape inFrame : σ → Bool} {feedByte : σ → UInt8 → σ × List Bytes}
  {appendRun : σ → Bytes → σ}

section

variable (h : TakesRuns escape inFrame feedByte appendRun)
include h

lemma TakesRuns.run_skip {d : σ} (hd : inFrame d = false) {bs : Bytes} (hbs : hdlcFlag ∉ bs) :
    run feedByte d bs = (d, []) := by
  induction bs with
  | nil => rfl
  | cons b bs ih =>
    have hb : b ≠ hdlcFlag := by
      rintro rfl
      exact hbs mem_cons_self
    rw [run_cons, h.skip d b hd hb]
    exact ih fun hmem => hbs (mem_cons_of_mem b hmem)

lemma TakesRuns.run_plain {d : σ} {bs : Bytes}
    (hframe : inFrame d) (hesc : escape d = false) (hne : bs ≠ [])
    (hplain : ∀ b ∈ bs, b ≠ hdlcFlag ∧ b ≠ hdlcEsc) : run feedByte d bs = (appendRun d bs, []) := by
  induction bs generalizing d with
  | nil => exact absurd rfl hne
  | cons b bs ih =>
    obtain ⟨hflag, hescape⟩ := hplain b mem_cons_self
    have hrest : ∀ a ∈ bs, a ≠ hdlcFlag ∧ a ≠ hdlcEsc :=
      fun a ha => hplain a (mem_cons_of_mem b ha)
    obtain ⟨hbyte, hesc'⟩ := h.plain d b hframe hesc hflag hescape
    rw [run_cons, hbyte, andThen_nil]
    by_cases hnil : bs = []
    · rw [hnil, run_nil]
    · rw [h.cons d b bs hframe hnil]
      cases hin : inFrame (appendRun d [b]) with
      | true => exact ih hin hesc' hnil hrest
      | false =>
        -- the frame was dropped at this byte, and the rest is passed over
        refine h.run_skip hin ?_
        intro hmem
        exact (hrest _ hmem).1 rfl

/-- **The loop takes the bytes of a buffer one by one.** -/
theorem hdlcLoop_eq {n : ℕ} (d : σ) {buf : Bytes} (hn : buf.length ≤ n) :
    hdlcLoop escape inFrame feedByte appendRun n d buf = run feedByte d buf := by
  induction n generalizing d buf with
  | zero =>
    have hnil : buf = [] := eq_nil_of_length_eq_zero (Nat.le_zero.1 hn)
    rw [hnil]
    rfl
  | succ n ih =>
    cases buf with
    | nil => rfl
    | cons b rest =>
      have hrest : rest.length ≤ n := Nat.le_of_succ_le_succ hn
      have hbyte : ∀ d, (andThen (feedByte d b) fun d =>
          hdlcLoop escape inFrame feedByte appendRun n d rest) =
          run feedByte d (b :: rest) := by
        simp [ih _ hrest]
      simp only [hdlcLoop]
      split_ifs with hesc hframe hnone hnext
      · exact hbyte d
      · -- there is no flag
        rw [h.run_skip (by simpa using hframe)]
        exact idxOf_eq_length_iff.1 hnone
      · -- skip to the flag
        set i := (b :: rest).idxOf hdlcFlag with hi
        have hlt : i < (b :: rest).length := lt_of_le_of_ne idxOf_le_length hnone
        have hflag : (b :: rest)[i] = hdlcFlag := getElem_idxOf hlt
        have hsplit : b :: rest =
            (b :: rest).take i ++ hdlcFlag :: (b :: rest).drop (i + 1) := by
          rw [← hflag, getElem_cons_drop, take_append_drop]
        have hlen : ((b :: rest).drop (i + 1)).length ≤ n := by
          rw [length_drop]
          omega
        conv_rhs => rw [hsplit]
        rw [run_append, h.run_skip (by simpa using hframe)
          (Stuffing.not_mem_take_of_le_idxOf le_rfl), andThen_nil, run_cons]
        simp only [ih _ hlen]
      · -- a run of plain bytes
        set next := hdlcStuffing.next (b :: rest)
        have hlen : ((b :: rest).drop next).length ≤ n := by
          rw [length_drop]
          omega
        have hrun : run feedByte d ((b :: rest).take next) =
            (appendRun d ((b :: rest).take next), []) := by
          refine h.run_plain (by simpa using hframe) (by simpa using hesc) ?_
            fun a ha => hdlcStuffing.plain_of_mem_take ha
          simpa using hnext.ne'
        rw [ih _ hlen]
        conv_rhs => rw [← take_append_drop next (b :: rest)]
        rw [run_append, hrun, andThen_nil]
      · exact hbyte d

end

end Loop

/-! ## The decoder of the interfaces -/

structure HdlcStreamDecoder where
  mtu : ℤ
  minPayload : ℤ
  inFrame : Bool
  escape : Bool
  toggle : Bool
  data : Bytes
  maxFrame : ℤ
deriving DecidableEq

def newHDLCStreamDecoderOpts (mtu : ℤ) (toggle : Bool) (minPayload : ℤ) : HdlcStreamDecoder where
  mtu
  minPayload
  inFrame := false
  escape := false
  toggle
  data := []
  maxFrame := if 2 * mtu + 32 < 256 then 2048 else 2 * mtu + 32

def newHDLCStreamDecoder (mtu : ℤ) : HdlcStreamDecoder := newHDLCStreamDecoderOpts mtu false 0

def newHDLCToggleStreamDecoder (mtu : ℤ) : HdlcStreamDecoder := newHDLCStreamDecoderOpts mtu true 0

def newTCPHDLCStreamDecoder (mtu : ℤ) : HdlcStreamDecoder :=
  newHDLCStreamDecoderOpts mtu true reticulumHeaderMinSize

namespace HdlcStreamDecoder

variable (d : HdlcStreamDecoder)

def limit : ℤ :=
  if 0 < d.mtu ∧ d.mtu < d.maxFrame then d.mtu else d.maxFrame

def accepts (len : ℕ) : Bool :=
  (d.mtu ≤ 0 ∨ len ≤ d.mtu) ∧ ¬ (0 < d.minPayload ∧ len ≤ d.minPayload)

def drop : HdlcStreamDecoder :=
  { d with data := [], inFrame := false, escape := false }

def feedByte (b : UInt8) : HdlcStreamDecoder × List Bytes :=
  if b = hdlcFlag then
    ({ d with data := [], inFrame := if d.toggle then !d.inFrame else true, escape := false },
      if d.inFrame ∧ 0 < d.data.length ∧ d.accepts d.data.length then [d.data] else [])
  else if !d.inFrame then (d, [])
  else if b = hdlcEsc then ({ d with escape := true }, [])
  else
    let b := if d.escape then b ^^^ hdlcEscMask else b
    if d.limit ≤ d.data.length then (d.drop, [])
    else ({ d with data := d.data ++ [b], escape := false }, [])

def appendRun (run : Bytes) : HdlcStreamDecoder :=
  if d.limit < d.data.length + run.length then d.drop else { d with data := d.data ++ run }

def feed (buf : Bytes) : HdlcStreamDecoder × List Bytes :=
  hdlcLoop (·.escape) (·.inFrame) feedByte appendRun buf.length d buf

def reader : FlagReader UInt8 where
  toStuffing := hdlcStuffing
  limit := d.limit
  accepts := d.accepts
  toggle := d.toggle

def abs : Option (Bytes × Bool) :=
  if d.inFrame then some (d.data, d.escape) else none

lemma takesRuns : TakesRuns (·.escape) (·.inFrame) feedByte appendRun where
  skip d b hframe hb := by simp [feedByte, hb, hframe]
  plain d b hframe hesc hflag hescape := by
    have hlen : d.limit < d.data.length + [b].length ↔ d.limit ≤ d.data.length := by
      rw [length_singleton]
      omega
    simp only [feedByte, appendRun, hflag, hescape, hframe, hesc, hlen]
    by_cases hfull : d.limit ≤ d.data.length
    · simp [hfull, drop]
    · simp [hfull]
  cons d b run hframe hne := by
    have hone : appendRun d [b] =
        if d.limit ≤ d.data.length then d.drop else { d with data := d.data ++ [b] } := by
      rw [appendRun, length_singleton]
      exact if_congr (by omega) rfl rfl
    by_cases hfull : d.limit ≤ d.data.length
    · have hlong : d.limit < d.data.length + (b :: run).length := by
        rw [length_cons]
        omega
      rw [hone, if_pos hfull, appendRun, if_pos hlong]
      rfl
    · rw [hone, if_neg hfull, if_pos hframe, appendRun]
      refine if_congr ?_ rfl ?_
      · simp only [limit, length_cons, length_append, length_nil]
        omega
      · simp

lemma reader_feedByte (b : UInt8) : (d.feedByte b).1.reader = d.reader := by
  rw [feedByte]
  split_ifs <;> rfl

/-- **Byte by byte the decoder is a reader of frames between flags.** -/
theorem sim {R : FlagReader UInt8} (d : HdlcStreamDecoder) (b : UInt8) (hd : d.reader = R) :
    (d.feedByte b).1.reader = R ∧ R.step d.abs b = ((d.feedByte b).1.abs, (d.feedByte b).2) := by
  refine ⟨(d.reader_feedByte b).trans hd, ?_⟩
  subst hd
  by_cases hflag : b = hdlcFlag
  · subst hflag
    rw [show d.reader.step d.abs hdlcFlag = _ from d.reader.step_flag d.abs]
    cases hframe : d.inFrame <;> cases htoggle : d.toggle <;>
      simp [feedByte, abs, reader, FlagReader.complete, hframe, htoggle, length_pos_iff]
  · simp only [feedByte, abs, FlagReader.step, reader, hdlcStuffing, hflag, if_false]
    cases hframe : d.inFrame with
    | false => simp [hframe]
    | true =>
      by_cases hesc : b = hdlcEsc
      · simp [hesc]
      · by_cases hfull : d.limit ≤ d.data.length
        · simp [hesc, hfull, not_lt.2 hfull, drop]
        · simp [hesc, hfull, not_le.1 hfull]

/-- **The loop over a buffer** takes its bytes one by one. -/
theorem feed_eq (buf : Bytes) : d.feed buf = run feedByte d buf :=
  hdlcLoop_eq takesRuns d le_rfl

lemma run_feed (chunks : List Bytes) : run feed d chunks = run feedByte d chunks.flatten :=
  run_chunks (fun d c _ => d.feed_eq c)
    (Run.along_of_forall fun _ _ => trivial)

lemma run_reader (bs : Bytes) :
    (run feedByte d bs).1.reader = d.reader ∧
      run d.reader.step d.abs bs =
        ((run feedByte d bs).1.abs, (run feedByte d bs).2) :=
  run_sim sim rfl bs

end HdlcStreamDecoder

/-! ## The decoder of the backbone -/

structure HDLCDecoder where
  mtu : ℤ
  inFrame : Bool
  escape : Bool
  data : Bytes
  maxFrame : ℤ
deriving DecidableEq

def newHDLCDecoder (mtu : ℤ) : HDLCDecoder where
  mtu
  inFrame := false
  escape := false
  data := []
  maxFrame := if mtu < 256 then 2048 else mtu

namespace HDLCDecoder

variable (d : HDLCDecoder)

def accepts (len : ℕ) : Bool :=
  ¬ ((len : ℤ) ≤ reticulumHeaderMinSize ∨ 0 < d.mtu ∧ d.mtu < len)

def drop : HDLCDecoder := { d with data := [], inFrame := false, escape := false }

def emit : HDLCDecoder × List Bytes :=
  ({ d with data := [] }, if d.data.length ≠ 0 ∧ d.accepts d.data.length then [d.data] else [])

/-- A flag toggles.  Unlike the other decoder this one leaves the data alone, unless it delivers
them. -/
def feedByte (b : UInt8) : HDLCDecoder × List Bytes :=
  if b = hdlcFlag then
    let (d, out) := if d.inFrame ∧ 0 < d.data.length then d.emit else (d, [])
    ({ d with inFrame := !d.inFrame, escape := false }, out)
  else if !d.inFrame then (d, [])
  else if b = hdlcEsc then ({ d with escape := true }, [])
  else
    let b := if d.escape then b ^^^ hdlcEscMask else b
    if d.maxFrame ≤ d.data.length then (d.drop, [])
    else ({ d with data := d.data ++ [b], escape := false }, [])

def appendRun (run : Bytes) : HDLCDecoder :=
  let room := d.maxFrame - d.data.length
  if room ≤ 0 ∨ room < run.length then d.drop else { d with data := d.data ++ run }

def feed (buf : Bytes) : HDLCDecoder × List Bytes :=
  hdlcLoop (·.escape) (·.inFrame) feedByte appendRun buf.length d buf

def reader : FlagReader UInt8 where
  toStuffing := hdlcStuffing
  limit := d.maxFrame
  accepts := d.accepts
  toggle := true

def abs : Option (Bytes × Bool) :=
  if d.inFrame then some (d.data, d.escape) else none

lemma takesRuns : TakesRuns (·.escape) (·.inFrame) feedByte appendRun where
  skip d b hframe hb := by simp [feedByte, hb, hframe]
  plain d b hframe hesc hflag hescape := by
    have hlen : (d.maxFrame - d.data.length ≤ 0 ∨ d.maxFrame - d.data.length < [b].length) ↔
        d.maxFrame ≤ d.data.length := by
      rw [length_singleton]
      omega
    simp only [feedByte, appendRun, hflag, hescape, hframe, hesc, hlen]
    by_cases hfull : d.maxFrame ≤ d.data.length
    · simp [hfull, drop]
    · simp [hfull]
  cons d b run hframe hne := by
    have hone : appendRun d [b] =
        if d.maxFrame ≤ d.data.length then d.drop else { d with data := d.data ++ [b] } := by
      simp only [appendRun, length_singleton]
      exact if_congr (by omega) rfl rfl
    by_cases hfull : d.maxFrame ≤ d.data.length
    · have hlong : d.maxFrame - d.data.length ≤ 0 := by omega
      simp only [appendRun, hlong]
      rfl
    · rw [hone, if_neg hfull, if_pos hframe]
      refine if_congr ?_ rfl ?_
      · have hpos := length_pos_of_ne_nil hne
        simp only [length_cons, length_append, length_nil]
        omega
      · simp

lemma reader_feedByte (b : UInt8) : (d.feedByte b).1.reader = d.reader := by
  rw [feedByte]
  split_ifs <;> rfl

lemma feedByte_flag :
    d.feedByte hdlcFlag =
      ({ d with
          data := if d.inFrame then [] else d.data, inFrame := !d.inFrame, escape := false },
        d.reader.complete d.abs) := by
  cases hframe : d.inFrame with
  | false => simp [feedByte, abs, hframe, FlagReader.complete]
  | true =>
    by_cases hnil : d.data = []
    · simp [feedByte, abs, hframe, FlagReader.complete, hnil]
    · simp [feedByte, abs, hframe, FlagReader.complete, hnil, emit, reader, length_pos_iff]

/-- **Byte by byte the decoder is a reader of frames between flags that toggles.** -/
theorem sim {R : FlagReader UInt8} (d : HDLCDecoder) (b : UInt8)
    (hd : d.reader = R ∧ (d.inFrame = false → d.data = [])) :
    ((d.feedByte b).1.reader = R ∧
        ((d.feedByte b).1.inFrame = false → (d.feedByte b).1.data = [])) ∧
      R.step d.abs b = ((d.feedByte b).1.abs, (d.feedByte b).2) := by
  obtain ⟨rfl, houtside⟩ := hd
  refine ⟨⟨d.reader_feedByte b, ?_⟩, ?_⟩
  · by_cases hflag : b = hdlcFlag
    · subst hflag
      rw [feedByte_flag]
      simp_all
    · rw [feedByte]
      split_ifs <;> simp_all [drop]
  · by_cases hflag : b = hdlcFlag
    · subst hflag
      rw [show d.reader.step d.abs hdlcFlag = _ from d.reader.step_flag d.abs, feedByte_flag]
      cases hframe : d.inFrame with
      | false => simp [abs, hframe, houtside hframe]
      | true => simp [abs, reader, hframe]
    · simp only [feedByte, abs, FlagReader.step, reader, hdlcStuffing, hflag, if_false]
      cases hframe : d.inFrame with
      | false => simp [hframe]
      | true =>
        by_cases hesc : b = hdlcEsc
        · simp [hesc]
        · by_cases hfull : d.maxFrame ≤ d.data.length
          · simp [hesc, hfull, not_lt.2 hfull, drop]
          · simp [hesc, hfull, not_le.1 hfull]

/-- **The loop over a buffer** takes its bytes one by one. -/
theorem feed_eq (buf : Bytes) : d.feed buf = run feedByte d buf :=
  hdlcLoop_eq takesRuns d le_rfl

lemma run_feed (chunks : List Bytes) : run feed d chunks = run feedByte d chunks.flatten :=
  run_chunks (fun d c _ => d.feed_eq c)
    (Run.along_of_forall fun _ _ => trivial)

lemma run_reader {d : HDLCDecoder} (hd : d.inFrame = false → d.data = []) (bs : Bytes) :
    ((run feedByte d bs).1.reader = d.reader ∧
        ((run feedByte d bs).1.inFrame = false → (run feedByte d bs).1.data = [])) ∧
      run d.reader.step d.abs bs =
        ((run feedByte d bs).1.abs, (run feedByte d bs).2) :=
  run_sim
    sim
    ⟨rfl, hd⟩ bs

end HDLCDecoder

end Reticulum

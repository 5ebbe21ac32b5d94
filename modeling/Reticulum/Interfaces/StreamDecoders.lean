import Reticulum.Interfaces.Hdlc
import Reticulum.Interfaces.Kiss

/-!
# The stream decoders

What the decoders have in common: what they make of the frames that the encoders write
(**`framing_round_trip`**), how they read a stream that comes in chunks (**`read_boundaries_iff`**),
and whether they find the frames again after noise (**`resynchronises_iff`**).
-/

namespace Reticulum

variable {mtu : ℤ} {chunks : List Bytes}

/-- `hdlcStreamDecoder` in its three modes, `HDLCDecoder` of the backbone, and
`kissStreamDecoder`. -/
inductive StreamMode where
  | plain
  | toggle
  | tcp
  | backbone
  | kiss
deriving DecidableEq

inductive StreamDecoder where
  | hdlc (d : HdlcStreamDecoder)
  | backbone (d : HDLCDecoder)
  | kiss (d : KissStreamDecoder)
deriving DecidableEq

namespace StreamDecoder

def feed : StreamDecoder → Bytes → StreamDecoder × List Bytes
  | .hdlc d, buf => (.hdlc (d.feed buf).1, (d.feed buf).2)
  | .backbone d, buf => (.backbone (d.feed buf).1, (d.feed buf).2)
  | .kiss d, buf => (.kiss (d.feed buf).1, (d.feed buf).2)

def inFrame : StreamDecoder → Bool
  | .hdlc d => d.inFrame
  | .backbone d => d.inFrame
  | .kiss d => d.inFrame

lemma run_hdlc (d : HdlcStreamDecoder) (chunks : List Bytes) :
    Feed.run feed (.hdlc d) chunks =
      (.hdlc (Feed.run HdlcStreamDecoder.feed d chunks).1,
        (Feed.run HdlcStreamDecoder.feed d chunks).2) :=
  (Feed.run_sim (I := fun _ => True) (fun _ _ _ => ⟨trivial, rfl⟩) trivial chunks).2

lemma run_backbone (d : HDLCDecoder) (chunks : List Bytes) :
    Feed.run feed (.backbone d) chunks =
      (.backbone (Feed.run HDLCDecoder.feed d chunks).1, (Feed.run HDLCDecoder.feed d chunks).2) :=
  (Feed.run_sim (I := fun _ => True) (fun _ _ _ => ⟨trivial, rfl⟩) trivial
    chunks).2

lemma run_kiss (d : KissStreamDecoder) (chunks : List Bytes) :
    Feed.run feed (.kiss d) chunks =
      (.kiss (Feed.run KissStreamDecoder.feed d chunks).1,
        (Feed.run KissStreamDecoder.feed d chunks).2) :=
  (Feed.run_sim (I := fun _ => True) (fun _ _ _ => ⟨trivial, rfl⟩) trivial chunks).2

end StreamDecoder

namespace StreamMode

def fresh (mtu : ℤ) : StreamMode → StreamDecoder
  | .plain => .hdlc (newHDLCStreamDecoder mtu)
  | .toggle => .hdlc (newHDLCToggleStreamDecoder mtu)
  | .tcp => .hdlc (newTCPHDLCStreamDecoder mtu)
  | .backbone => .backbone (newHDLCDecoder mtu)
  | .kiss => .kiss (newKISSStreamDecoder mtu)

def appendFrame : StreamMode → Bytes → Bytes → Bytes
  | .kiss => appendFrameKISS
  | _ => appendFrameHDLC

def encodeFrames (mode : StreamMode) (payloads : List Bytes) : Bytes :=
  payloads.foldl mode.appendFrame []

def toggles : StreamMode → Bool
  | .plain => false
  | .kiss => false
  | _ => true

def minPayload : StreamMode → ℤ
  | .plain => 0
  | .toggle => 0
  | .tcp => reticulumHeaderMinSize
  | .backbone => reticulumHeaderMinSize
  | .kiss => -1

/-- A payload must not be longer than this: the MTU, or a default where there is none. -/
def maxPayload (mtu : ℤ) : StreamMode → ℤ
  | .kiss => if mtu ≤ 0 then kissDefaultMTU else mtu
  | _ => if mtu ≤ 0 then 2048 else mtu

def WithinLimits (mode : StreamMode) (mtu : ℤ) (p : Bytes) : Prop :=
  mode.minPayload < p.length ∧ p.length ≤ mode.maxPayload mtu

instance decidableWithinLimits (mode : StreamMode) (mtu : ℤ) (p : Bytes) :
    Decidable (mode.WithinLimits mtu p) :=
  inferInstanceAs (Decidable (_ ∧ _))

end StreamMode

lemma foldl_append_frames {π : Type} {append : Bytes → π → Bytes} {frame : π → Bytes}
    (h : ∀ dst p, append dst p = dst ++ frame p) (dst : Bytes) (ps : List π) :
    ps.foldl append dst = dst ++ ps.flatMap frame := by
  induction ps generalizing dst with
  | nil => simp
  | cons p ps ih => simp [ih, h]

/-! ## HDLC decoders as readers -/

namespace StreamMode

variable {mode : StreamMode}

lemma encodeFrames_flag (hmode : mode ≠ .kiss) {R : FlagReader UInt8}
    (hR : R.toStuffing = hdlcStuffing) (payloads : List Bytes) :
    mode.encodeFrames payloads = payloads.flatMap R.frame := by
  refine foldl_append_frames ?_ [] payloads
  intro dst p
  have happend : mode.appendFrame dst p = appendFrameHDLC dst p := by
    cases mode
    case kiss => exact absurd rfl hmode
    all_goals rfl
  rw [happend, appendFrameHDLC, appendEscapeHDLC_eq, FlagReader.frame, hR]
  simp [hdlcStuffing]

structure ReadsAs (mode : StreamMode) (mtu : ℤ) (d : StreamDecoder) (R : FlagReader UInt8)
    (s : Option (Bytes × Bool)) : Prop where
  stuffing : R.toStuffing = hdlcStuffing
  toggle : R.toggle = mode.toggles
  takes : ∀ p, R.Takes p ↔ mode.WithinLimits mtu p
  inFrame : d.inFrame = s.isSome
  reads : ∀ chunks, (Feed.run StreamDecoder.feed d chunks).2 = (Feed.run R.step s chunks.flatten).2

lemma takes_hdlc (mtu : ℤ) (toggle : Bool) {minPayload : ℤ} (hmin : 0 ≤ minPayload) (p : Bytes) :
    (newHDLCStreamDecoderOpts mtu toggle minPayload).reader.Takes p ↔
      minPayload < p.length ∧ p.length ≤ if mtu ≤ 0 then 2048 else mtu := by
  have hlimit : (newHDLCStreamDecoderOpts mtu toggle minPayload).reader.limit =
      if mtu ≤ 0 then 2048 else mtu := by
    simp only [HdlcStreamDecoder.reader, HdlcStreamDecoder.limit, newHDLCStreamDecoderOpts]
    split_ifs <;> omega
  have haccepts : (newHDLCStreamDecoderOpts mtu toggle minPayload).accepts p.length ↔
      (mtu ≤ 0 ∨ p.length ≤ mtu) ∧ ¬ (0 < minPayload ∧ p.length ≤ minPayload) :=
    decide_eq_true_iff
  constructor
  · rintro ⟨hne, hle, hacc⟩
    have hpos := List.length_pos_of_ne_nil hne
    have hlen := (haccepts.1 hacc).2
    rw [hlimit] at hle
    exact ⟨by omega, hle⟩
  · rintro ⟨hlong, hmax⟩
    refine ⟨?_, hlimit.symm ▸ hmax, haccepts.2 ⟨?_, ?_⟩⟩
    · rintro rfl
      simp only [List.length_nil] at hlong
      omega
    · split_ifs at hmax with hmtu
      · exact .inl hmtu
      · exact .inr hmax
    · omega

lemma takes_backbone (mtu : ℤ) (p : Bytes) :
    (newHDLCDecoder mtu).reader.Takes p ↔ backbone.WithinLimits mtu p := by
  have haccepts : (newHDLCDecoder mtu).accepts p.length ↔
      ¬ (p.length ≤ reticulumHeaderMinSize ∨ 0 < mtu ∧ mtu < p.length) :=
    decide_eq_true_iff
  have hlimit : (newHDLCDecoder mtu).reader.limit = if mtu < 256 then 2048 else mtu := rfl
  have hwithin : backbone.WithinLimits mtu p ↔
      reticulumHeaderMinSize < p.length ∧ p.length ≤ if mtu ≤ 0 then 2048 else mtu := .rfl
  rw [hwithin]
  constructor
  · rintro ⟨hne, hle, hacc⟩
    have hlen := haccepts.1 hacc
    split_ifs at hle ⊢ <;> omega
  · rintro ⟨hlong, hmax⟩
    refine ⟨?_, ?_, haccepts.2 ?_⟩
    · rintro rfl
      cases hlong
    · split_ifs at hmax ⊢ <;> omega
    · split_ifs at hmax <;> omega

lemma readsAs_hdlc {d₀ d : HdlcStreamDecoder} (htoggle : d₀.toggle = mode.toggles)
    (htakes : ∀ p, d₀.reader.Takes p ↔ mode.WithinLimits mtu p) (hd : d.reader = d₀.reader) :
    mode.ReadsAs mtu (.hdlc d) d₀.reader d.abs where
  stuffing := rfl
  toggle := htoggle
  takes := htakes
  inFrame := by
    cases hframe : d.inFrame <;> simp [StreamDecoder.inFrame, HdlcStreamDecoder.abs, hframe]
  reads chunks := by rw [StreamDecoder.run_hdlc, d.run_feed, ← hd, (d.run_reader _).2]

lemma readsAs_backbone {d : HDLCDecoder} (hd : d.reader = (newHDLCDecoder mtu).reader)
    (hdata : d.inFrame = false → d.data = []) :
    backbone.ReadsAs mtu (.backbone d) (newHDLCDecoder mtu).reader d.abs where
  stuffing := rfl
  toggle := rfl
  takes := takes_backbone mtu
  inFrame := by cases hframe : d.inFrame <;> simp [StreamDecoder.inFrame, HDLCDecoder.abs, hframe]
  reads chunks := by
    rw [StreamDecoder.run_backbone, d.run_feed, ← hd, (HDLCDecoder.run_reader hdata _).2]

/-- **Every HDLC decoder, after any bytes, is a reader.** -/
lemma exists_readsAs (hmode : mode ≠ .kiss) (mtu : ℤ) (noise : List Bytes) :
    ∃ R s, mode.ReadsAs mtu (Feed.run StreamDecoder.feed (mode.fresh mtu) noise).1 R s := by
  have hhdlc : ∀ d₀ : HdlcStreamDecoder, d₀.toggle = mode.toggles →
      (∀ p, d₀.reader.Takes p ↔ mode.WithinLimits mtu p) →
      ∃ R s, mode.ReadsAs mtu (Feed.run StreamDecoder.feed (.hdlc d₀) noise).1 R s := by
    intro d₀ htoggle htakes
    rw [StreamDecoder.run_hdlc, d₀.run_feed]
    exact ⟨_, _, readsAs_hdlc htoggle htakes (d₀.run_reader _).1⟩
  cases mode with
  | plain => exact hhdlc _ rfl (takes_hdlc mtu false le_rfl)
  | toggle => exact hhdlc _ rfl (takes_hdlc mtu true le_rfl)
  | tcp => exact hhdlc _ rfl (takes_hdlc mtu true (by decide))
  | backbone =>
    have hrun := HDLCDecoder.run_reader (d := newHDLCDecoder mtu) (fun _ => rfl) noise.flatten
    rw [fresh, StreamDecoder.run_backbone, HDLCDecoder.run_feed]
    exact ⟨_, _, readsAs_backbone hrun.1.1 hrun.1.2⟩
  | kiss => exact absurd rfl hmode

lemma exists_readsAs_fresh (hmode : mode ≠ .kiss) (mtu : ℤ) :
    ∃ R, mode.ReadsAs mtu (mode.fresh mtu) R none := by
  obtain ⟨R, s, hreads⟩ := exists_readsAs hmode mtu []
  have hframe : (mode.fresh mtu).inFrame = false := by cases mode <;> rfl
  have hnone : s = none := by
    rw [← Option.isSome_eq_false_iff.trans Option.isNone_iff_eq_none, ← hreads.inFrame]
    exact hframe
  subst hnone
  exact ⟨R, hreads⟩

/-! ## KISS -/

lemma takes_kiss (mtu : ℤ) (p : Bytes) :
    (newKISSStreamDecoder mtu).reader.Takes kissCmdData p ↔ kiss.WithinLimits mtu p := by
  constructor
  · intro h
    refine ⟨?_, h.length_le⟩
    simp only [minPayload]
    omega
  · intro h
    have hcmd : kissCmdData ≠ kissFend := by decide
    have hdata : decide (kissCmdData &&& 0x0F = kissCmdData) := by decide
    exact ⟨hcmd, hdata, h.2⟩

lemma encodeFrames_kiss (mtu : ℤ) (payloads : List Bytes) :
    kiss.encodeFrames payloads =
      (payloads.map fun p => (kissCmdData, p)).flatMap fun q =>
        (newKISSStreamDecoder mtu).reader.frame q.1 q.2 := by
  rw [List.flatMap_map]
  refine foldl_append_frames ?_ [] payloads
  simp [appendFrame, appendFrameKISS, rnodeEscape_eq, CommandReader.frame, KissStreamDecoder.reader,
    kissStuffing]

/-- **A KISS decoder, after any bytes, is a reader of frames that fit.** -/
lemma kiss_reads {d : KissStreamDecoder}
    (hd : d.reader = (newKISSStreamDecoder mtu).reader ∧ d.Fresh) {payloads : List Bytes}
    (hp : ∀ p ∈ payloads, kiss.WithinLimits mtu p)
    (hchunks : chunks.flatten = kiss.encodeFrames payloads) :
    (∀ q ∈ payloads.map fun p => (kissCmdData, p), d.reader.Takes q.1 q.2) ∧
      (Feed.run StreamDecoder.feed (.kiss d) chunks).2 =
        (Feed.run d.reader.step d.abs
          ((payloads.map fun p => (kissCmdData, p)).flatMap fun q =>
            d.reader.frame q.1 q.2)).2 := by
  have htakes : ∀ q ∈ payloads.map fun p => (kissCmdData, p), d.reader.Takes q.1 q.2 := by
    intro q hq
    obtain ⟨p, hmem, rfl⟩ := List.mem_map.1 hq
    rw [hd.1]
    exact (takes_kiss mtu p).2 (hp p hmem)
  have hstream : chunks.flatten = (payloads.map fun p => (kissCmdData, p)).flatMap fun q =>
      d.reader.frame q.1 q.2 := by
    rw [hchunks, encodeFrames_kiss mtu, hd.1]
  have hfits : d.Fits chunks.flatten := by
    rw [hstream]
    exact KissStreamDecoder.fits_of_reader hd.2 (CommandReader.fits_frames d.abs htakes)
  refine ⟨htakes, ?_⟩
  rw [StreamDecoder.run_kiss, KissStreamDecoder.run_feed_of_fits hfits, ← hstream,
    (KissStreamDecoder.run_reader hd.2 _).2]

lemma kiss_items (d : KissStreamDecoder) (payloads : List Bytes) :
    ((payloads.map fun p => (kissCmdData, p)).map fun q =>
      d.reader.item (d.reader.command q.1) q.2) = payloads := by
  rw [List.map_map]
  exact List.map_id payloads

/-! ## What comes of frames -/

/-- The decoder finds the frames that it is fed from now on, after at most two of them, wherever the
stream is cut. -/
def Resynchronises (mode : StreamMode) (mtu : ℤ) (d : StreamDecoder) : Prop :=
  ∀ payloads : List Bytes, (∀ p ∈ payloads, mode.WithinLimits mtu p) →
    ∀ chunks : List Bytes, chunks.flatten = mode.encodeFrames payloads →
      payloads.drop 2 <:+ (Feed.run StreamDecoder.feed d chunks).2

lemma ReadsAs.resynchronises (hmode : mode ≠ .kiss) {d : StreamDecoder}
    {R : FlagReader UInt8} {s : Option (Bytes × Bool)} (h : mode.ReadsAs mtu d R s) :
    mode.Resynchronises mtu d ↔ (mode.toggles → d.inFrame → ∀ p, ¬ mode.WithinLimits mtu p) := by
  simp only [← h.toggle, h.inFrame, ← h.takes, ← R.resync_iff s]
  constructor
  · intro hd ps hps
    have hone := hd ps (fun p hp => (h.takes p).1 (hps p hp)) [mode.encodeFrames ps] (by simp)
    rwa [h.reads, encodeFrames_flag hmode h.stuffing, List.flatten_singleton] at hone
  · intro hR ps hps chunks hchunks
    rw [h.reads, hchunks, encodeFrames_flag hmode h.stuffing]
    exact hR ps fun p hp => (h.takes p).2 (hps p hp)

/-- **When a decoder finds the frames again**, whatever it was fed before: exactly if its flags do
not toggle, or it is outside of a frame, or there are no payloads within its limits. -/
theorem resynchronises_iff (mode : StreamMode) (mtu : ℤ) (noise : List Bytes) :
    mode.Resynchronises mtu (Feed.run StreamDecoder.feed (mode.fresh mtu) noise).1 ↔
      (mode.toggles = true →
        (Feed.run StreamDecoder.feed (mode.fresh mtu) noise).1.inFrame = true →
        ∀ p, ¬ mode.WithinLimits mtu p) := by
  by_cases hmode : mode = .kiss
  · subst hmode
    constructor
    · intro _ htoggle
      cases htoggle
    · intro _ payloads hp chunks hchunks
      rw [fresh, StreamDecoder.run_kiss]
      have hfresh : (newKISSStreamDecoder mtu).Fresh := by
        intro hframe
        cases hframe
      obtain ⟨htakes, hout⟩ :=
        kiss_reads (KissStreamDecoder.fresh_run_feed hfresh noise) hp hchunks
      have hsuffix := CommandReader.run_frames_suffix
        (Feed.run KissStreamDecoder.feed (newKISSStreamDecoder mtu) noise).1.abs htakes
      rw [← List.map_drop, kiss_items] at hsuffix
      rw [hout]
      refine trans ?_ hsuffix
      rw [← List.drop_drop (i := 1)]
      exact List.drop_suffix 1 _
  · obtain ⟨R, s, hreads⟩ := exists_readsAs hmode mtu noise
    exact hreads.resynchronises hmode

/-- A frame that is longer than the MTU leaves the decoder inside of a frame, since its own last
flag toggles after the first one was forgotten.  Of the frames that follow none is delivered. -/
theorem long_frame_desynchronises :
    ¬ ∀ (mode : StreamMode) (mtu : ℤ) (noise : List Bytes),
      mode.Resynchronises mtu (Feed.run StreamDecoder.feed (mode.fresh mtu) noise).1 := by
  intro h
  have hlost := h .toggle 4 [appendFrameHDLC [] [1, 2, 3, 4, 5]] [[1], [2], [3], [4]] (by decide)
    [toggle.encodeFrames [[1], [2], [3], [4]]] (by decide)
  revert hlost
  decide +kernel

/-! ## Cuts -/

/-- **When the cuts do not matter**: for HDLC always; for KISS exactly if no complete frame stands
after the first byte at which a frame outgrows the MTU. -/
theorem read_boundaries_iff (mode : StreamMode) (mtu : ℤ) (stream : Bytes) :
    (∀ chunks : List Bytes, chunks.flatten = stream →
      (Feed.run StreamDecoder.feed (mode.fresh mtu) chunks).2 =
        (Feed.run StreamDecoder.feed (mode.fresh mtu) (stream.map fun b => [b])).2) ↔
    (mode = .kiss →
      ¬ (newKISSStreamDecoder mtu).reader.HasFrame
        ((newKISSStreamDecoder mtu).dropped stream)) := by
  by_cases hmode : mode = .kiss
  · subst hmode
    have hiff := ((newKISSStreamDecoder mtu).run_feed_iff stream).trans
      ((newKISSStreamDecoder mtu).run_reset_iff _)
    simp only [fresh, StreamDecoder.run_kiss, true_imp_iff,
      Feed.run_singletons KissStreamDecoder.feed_singleton]
    exact hiff
  · obtain ⟨R, hreads⟩ := exists_readsAs_fresh hmode mtu
    simp only [hmode, false_imp_iff, iff_true]
    rintro chunks rfl
    rw [hreads.reads chunks, hreads.reads, ← List.flatMap_def, List.flatMap_singleton']

/-- Five bytes on a decoder for four, and then two frames: they are lost if they come in the same
buffer. -/
theorem kiss_cut_matters :
    ¬ ∀ (mode : StreamMode) (mtu : ℤ) (stream : Bytes) (chunks : List Bytes),
      chunks.flatten = stream →
        (Feed.run StreamDecoder.feed (mode.fresh mtu) chunks).2 =
          (Feed.run StreamDecoder.feed (mode.fresh mtu) (stream.map fun b => [b])).2 := by
  intro h
  have hlost := h .kiss 4 _ [kiss.encodeFrames [[1, 2, 3, 4, 5], [6], [7]]] rfl
  revert hlost
  decide +kernel

end StreamMode

/-! ## Round trips -/

def encodeRNodeFrames (frames : List (UInt8 × Bytes)) : Bytes :=
  frames.foldl (fun dst f => appendRNodeFrame dst f.1 f.2) []

lemma encodeRNodeFrames_eq (mtu : ℤ) (frames : List (UInt8 × Bytes)) :
    encodeRNodeFrames frames =
      frames.flatMap fun f => (newRNodeCmdDecoder mtu).reader.frame f.1 f.2 := by
  refine foldl_append_frames ?_ [] frames
  simp [appendRNodeFrame, rnodeEscape_eq, CommandReader.frame, RnodeCmdDecoder.reader, kissStuffing]

lemma rnode_round_trip {frames : List (UInt8 × Bytes)}
    (hframes : ∀ f ∈ frames, f.1 ≠ kissFend ∧ f.2.length ≤ if mtu ≤ 0 then rnodeHWMTU else mtu)
    (hchunks : chunks.flatten = encodeRNodeFrames frames) :
    (Feed.run RnodeCmdDecoder.feed (newRNodeCmdDecoder mtu) chunks).2 = frames := by
  have hfresh : (newRNodeCmdDecoder mtu).Fresh := by
    intro hframe
    cases hframe
  have htakes : ∀ f ∈ frames, (newRNodeCmdDecoder mtu).reader.Takes f.1 f.2 := by
    intro f hf
    exact ⟨(hframes f hf).1, rfl, (hframes f hf).2⟩
  have hrun := (RnodeCmdDecoder.run_reader hfresh chunks.flatten).2
  have hout := CommandReader.run_frames (s := (newRNodeCmdDecoder mtu).abs) (.inl rfl) htakes
  rw [RnodeCmdDecoder.run_feed, ← congrArg Prod.snd hrun, hchunks, encodeRNodeFrames_eq mtu, hout]
  exact List.map_id frames

namespace StreamMode

lemma round_trip {mode : StreamMode} {payloads : List Bytes}
    (hp : ∀ p ∈ payloads, mode.WithinLimits mtu p)
    (hchunks : chunks.flatten = mode.encodeFrames payloads) :
    (Feed.run StreamDecoder.feed (mode.fresh mtu) chunks).2 = payloads := by
  by_cases hmode : mode = .kiss
  · subst hmode
    have hfresh : (newKISSStreamDecoder mtu).Fresh := by
      intro hframe
      cases hframe
    obtain ⟨htakes, hout⟩ := kiss_reads ⟨rfl, hfresh⟩ hp hchunks
    have hframes := CommandReader.run_frames (s := (newKISSStreamDecoder mtu).abs) (.inl rfl) htakes
    rw [fresh, hout, hframes, kiss_items]
  · obtain ⟨R, hreads⟩ := exists_readsAs_fresh hmode mtu
    rw [hreads.reads, hchunks, encodeFrames_flag hmode hreads.stuffing]
    exact FlagReader.run_frames_eq (fun _ => rfl) rfl fun p hp' => (hreads.takes p).2 (hp p hp')

end StreamMode

/-- **What is framed is delivered**: by a fresh decoder, in order and nothing else, wherever the
stream is cut.  A frame of an RNode may have any command but the flag. -/
theorem framing_round_trip :
    (∀ (mode : StreamMode) (mtu : ℤ) (payloads chunks : List Bytes),
      (∀ p ∈ payloads, mode.WithinLimits mtu p) → chunks.flatten = mode.encodeFrames payloads →
        (Feed.run StreamDecoder.feed (mode.fresh mtu) chunks).2 = payloads) ∧
    ∀ (mtu : ℤ) (frames : List (UInt8 × Bytes)) (chunks : List Bytes),
      (∀ f ∈ frames, f.1 ≠ kissFend ∧ f.2.length ≤ if mtu ≤ 0 then rnodeHWMTU else mtu) →
        chunks.flatten = encodeRNodeFrames frames →
          (Feed.run RnodeCmdDecoder.feed (newRNodeCmdDecoder mtu) chunks).2 = frames := by
  constructor
  · intro mode mtu payloads chunks hp hchunks
    exact StreamMode.round_trip hp hchunks
  · intro mtu frames chunks hframes hchunks
    exact rnode_round_trip hframes hchunks

/-- Payloads of flags and escape bytes, cut after the third byte. -/
theorem framing_round_trip_flags :
    (Feed.run StreamDecoder.feed (StreamMode.plain.fresh 500)
        [[0x7E, 0x7D, 0x5E], [0x7D, 0x5D, 0x7E]]).2 = [[0x7E, 0x7D]] ∧
      (Feed.run RnodeCmdDecoder.feed (newRNodeCmdDecoder 0)
        [[0xC0, 0x50, 0xDB], [0xDC, 0xDB, 0xDD, 0xC0]]).2 = [(0x50, [0xC0, 0xDB])] :=
  ⟨framing_round_trip.1 .plain 500 [[0x7E, 0x7D]] _ (by decide) (by decide),
    framing_round_trip.2 0 [(0x50, [0xC0, 0xDB])] _ (by decide) (by decide)⟩

end Reticulum

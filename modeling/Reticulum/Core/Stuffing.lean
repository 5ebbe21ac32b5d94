import Mathlib.Algebra.Order.Group.Int
import Reticulum.Core.Feed

/-!
# Byte stuffing, and the machines that read it

Frames are told apart by a symbol that stands nowhere else, the **flag**.  Where the contents have
it, an **escape** symbol and a substitute are written in its place, and so for the escape symbol
itself.  Two machines read such streams:

* **`FlagReader`** — a frame is what is between two flags.  A reader that *toggles* takes every
  other flag for the end of a frame.
* **`CommandReader`** — the first symbol of a frame is a command.

A reader that toggles and is inside a frame takes the gaps between the frames for frames, and goes
on like that (`run_frames_inside`).
-/

universe u v w

/-- A flag, an escape symbol, and the substitutes that are written for the two of them. -/
structure Stuffing (α : Type u) where
  flag : α
  esc : α
  sub : α → α
  unsub : α → α
  esc_ne_flag : esc ≠ flag
  unsub_sub : ∀ a, a = flag ∨ a = esc → unsub (sub a) = a
  sub_ne : ∀ a, a = flag ∨ a = esc → sub a ≠ flag ∧ sub a ≠ esc

namespace Stuffing

open List Feed

variable {α : Type u} [DecidableEq α] (S : Stuffing α)

def stuff (a : α) : List α := if a = S.flag ∨ a = S.esc then [S.esc, S.sub a] else [a]

def encode (p : List α) : List α := p.flatMap S.stuff

@[simp] lemma encode_nil : S.encode [] = [] := rfl

lemma encode_cons (a : α) (p : List α) : S.encode (a :: p) = S.stuff a ++ S.encode p := rfl

lemma flag_not_mem_stuff (a : α) : S.flag ∉ S.stuff a := by
  unfold stuff
  split_ifs with ha
  · have hsub := (S.sub_ne a ha).1
    simp [S.esc_ne_flag.symm, hsub.symm]
  · simp only [mem_singleton]
    intro heq
    exact ha (.inl heq.symm)

/-- **The flag stands nowhere in the contents.** -/
lemma flag_not_mem_encode (p : List α) : S.flag ∉ S.encode p := by
  intro hmem
  obtain ⟨a, -, ha⟩ := mem_flatMap.1 hmem
  exact S.flag_not_mem_stuff a ha

/-! ### Runs of plain symbols -/

def next (buf : List α) : ℕ := min (buf.idxOf S.flag) (buf.idxOf S.esc)

omit [DecidableEq α] in
lemma not_mem_take_of_le_idxOf [BEq α] [LawfulBEq α] {a : α} {buf : List α} {n : ℕ}
    (h : n ≤ buf.idxOf a) : a ∉ buf.take n := by
  intro hmem
  have hle := ( take_prefix n buf).idxOf_eq_of_mem hmem
  have hlt := idxOf_lt_length_of_mem hmem
  rw [length_take] at hlt
  omega

lemma plain_of_mem_take {a : α} {buf : List α} (h : a ∈ buf.take (S.next buf)) :
    a ≠ S.flag ∧ a ≠ S.esc := by
  constructor
  · rintro rfl
    exact not_mem_take_of_le_idxOf (min_le_left _ _) h
  · rintro rfl
    exact not_mem_take_of_le_idxOf (min_le_right _ _) h

lemma next_le_length (buf : List α) : S.next buf ≤ buf.length :=
  (min_le_left _ _).trans idxOf_le_length

lemma next_pos {a : α} (hflag : a ≠ S.flag) (hesc : a ≠ S.esc) (rest : List α) :
    0 < S.next (a :: rest) := by
  simp [next, idxOf_cons_ne _ hflag, idxOf_cons_ne _ hesc]

/-! ### Collecting -/

/-- How a machine collects: `inside data escape` is the state in which it has collected `data`, and
`escape` says that the next symbol is a substitute. -/
structure Collects {σ : Type v} {φ : Type w} (step : σ → α → σ × List φ)
    (inside : List α → Bool → σ) (limit : ℤ) : Prop where
  plain : ∀ data a, data.length < limit → a ≠ S.flag → a ≠ S.esc →
    step (inside data false) a = (inside (data ++ [a]) false, [])
  escape : ∀ data, data.length < limit → step (inside data false) S.esc = (inside data true, [])
  escaped : ∀ data a, data.length < limit → a ≠ S.flag → a ≠ S.esc →
    step (inside data true) a = (inside (data ++ [S.unsub a]) false, [])

variable {S}

lemma Collects.stuff {σ : Type v} {φ : Type w} {step : σ → α → σ × List φ}
    {inside : List α → Bool → σ} {limit : ℤ} (h : S.Collects step inside limit) {data : List α}
    (hdata : data.length < limit) (a : α) :
    run step (inside data false) (S.stuff a) = (inside (data ++ [a]) false, []) := by
  unfold Stuffing.stuff
  split_ifs with ha
  · obtain ⟨hflag, hesc⟩ := S.sub_ne a ha
    rw [run_cons, h.escape data hdata, andThen_nil, run_singleton,
      h.escaped data _ hdata hflag hesc, S.unsub_sub a ha]
  · push Not at ha
    rw [run_singleton, h.plain data a hdata ha.1 ha.2]

/-- **The contents are collected**, as long as there is room for them. -/
theorem Collects.run_encode {σ : Type v} {φ : Type w} {step : σ → α → σ × List φ}
    {inside : List α → Bool → σ} {limit : ℤ} (h : S.Collects step inside limit) {p data : List α}
    (hroom : data.length + p.length ≤ limit) :
    run step (inside data false) (S.encode p) = (inside (data ++ p) false, []) := by
  induction p generalizing data with
  | nil => simp
  | cons a p ih =>
    have hdata : data.length < limit := by
      simp only [length_cons] at hroom
      omega
    have hrest : (data ++ [a]).length + p.length ≤ limit := by
      simp only [length_append, length_cons, length_nil] at hroom ⊢
      omega
    rw [encode_cons, run_append, h.stuff hdata, andThen_nil, ih hrest]
    simp

end Stuffing

/-! ## Frames between flags -/

structure FlagReader (α : Type u) extends Stuffing α where
  limit : ℤ
  accepts : ℕ → Bool
  toggle : Bool

namespace FlagReader

variable {α : Type u} [DecidableEq α] (R : FlagReader α)

/-- What a flag puts out: what was collected, if the reader is inside a frame. -/
def complete : Option (List α × Bool) → List (List α)
  | none => []
  | some (data, _) => if data ≠ [] ∧ R.accepts data.length then [data] else []

/-- One symbol.  The state is what was collected, if the reader is inside a frame, and whether the
next symbol is a substitute. -/
def step (s : Option (List α × Bool)) (a : α) : Option (List α × Bool) × List (List α) :=
  if a = R.flag then (if R.toggle = true ∧ s.isSome then none else some ([], false), R.complete s)
  else
    match s with
    | none => (none, [])
    | some (data, escape) =>
      if a = R.esc then (some (data, true), [])
      else if data.length < R.limit then
        (some (data ++ [if escape then R.unsub a else a], false), [])
      else (none, [])

def frame (p : List α) : List α := R.flag :: R.encode p ++ [R.flag]

structure Takes (p : List α) : Prop where
  ne_nil : p ≠ []
  length_le : p.length ≤ R.limit
  accepted : R.accepts p.length = true

variable {R} {s : Option (List α × Bool)}

lemma step_flag (s : Option (List α × Bool)) : R.step s R.flag =
      (if R.toggle ∧ s.isSome then none else some ([], false), R.complete s) := by
  simp [step]

lemma collects : R.toStuffing.Collects R.step (fun data escape => some (data, escape)) R.limit where
  plain data a hdata hflag hesc := by simp [step, hflag, hesc, hdata]
  escape data hdata := by simp [step, R.esc_ne_flag]
  escaped data a hdata hflag hesc := by simp [step, hflag, hesc, hdata]

lemma run_outside {as : List α} (h : R.flag ∉ as) : Feed.run R.step none as = (none, []) := by
  induction as with
  | nil => rfl
  | cons a as ih =>
    have ha : a ≠ R.flag := by
      rintro rfl
      exact h List.mem_cons_self
    have hstep : R.step none a = (none, []) := by simp [step, ha]
    rw [Feed.run_cons, hstep]
    exact ih fun hmem => h (List.mem_cons_of_mem a hmem)

/-- The states that a frame is read in: the reader does not toggle, or it is outside. -/
def Ready (R : FlagReader α) (s : Option (List α × Bool)) : Prop := R.toggle = true → s = none

/-- **One frame**, if the reader is ready: after what was completed by its first flag, it is put
out. -/
lemma run_frame (hs : R.Ready s) {p : List α} (hp : R.Takes p) :
    Feed.run R.step s (R.frame p) =
      (if R.toggle then none else some ([], false), R.complete s ++ [p]) := by
  have hfirst : R.step s R.flag = (some ([], false), R.complete s) := by
    rw [step_flag, if_neg]
    rintro ⟨htoggle, hsome⟩
    rw [hs htoggle] at hsome
    cases hsome
  have hlast : R.step (some (p, false)) R.flag =
      (if R.toggle then none else some ([], false), [p]) := by
    simp [step_flag, complete, hp.ne_nil, hp.accepted]
  have hroom : (([] : List α).length : ℤ) + p.length ≤ R.limit := by
    simpa using hp.length_le
  rw [frame, List.cons_append, Feed.run_cons, hfirst, Feed.andThen, Feed.run_append,
    collects.run_encode hroom, Feed.andThen_nil, List.nil_append, Feed.run_singleton, hlast]

omit [DecidableEq α] in
lemma ready_closed (R : FlagReader α) : R.Ready (if R.toggle then none else some ([], false)) := by
  intro htoggle
  rw [if_pos htoggle]

/-- A reader that is ready, and has nothing to complete, puts out the frames that follow and nothing
else. -/
theorem run_frames_eq (hs : R.Ready s) (hempty : R.complete s = []) {ps : List (List α)}
    (hps : ∀ p ∈ ps, R.Takes p) : (Feed.run R.step s (ps.flatMap R.frame)).2 = ps := by
  have hmap : (Feed.run R.step s (ps.flatMap R.frame)).2 = ps.map id := by
    refine Feed.run_flatMap (G := fun t => R.Ready t ∧ R.complete t = []) ?_ ⟨hs, hempty⟩
    rintro t ⟨ht, hnone⟩ p hp
    rw [run_frame ht (hps p hp), hnone]
    refine ⟨⟨R.ready_closed, ?_⟩, rfl⟩
    cases R.toggle <;> simp [complete]
  rw [hmap, List.map_id]

/-- **A reader that is ready** puts out every frame that follows. -/
theorem run_frames (hs : R.Ready s) {ps : List (List α)} (hps : ∀ p ∈ ps, R.Takes p) :
    ps <:+ (Feed.run R.step s (ps.flatMap R.frame)).2 := by
  cases ps with
  | nil => exact List.nil_suffix
  | cons p ps =>
    have hempty : R.complete (if R.toggle then none else some ([], false)) = [] := by
      cases R.toggle <;> simp [complete]
    rw [List.flatMap_cons, Feed.run_append, run_frame hs (hps p List.mem_cons_self), Feed.andThen,
      run_frames_eq R.ready_closed hempty fun q hq => hps q (List.mem_cons_of_mem p hq),
      List.append_assoc]
    exact List.suffix_append _ _

/-- **A reader that toggles and is inside a frame** puts out none of the frames that follow, however
many there are. -/
theorem run_frames_inside (htoggle : R.toggle) (s : List α × Bool) (ps : List (List α)) :
    (Feed.run R.step (some s) (ps.flatMap R.frame)).2.length ≤ 1 := by
  have hskip : ∀ (s) p,
      Feed.run R.step (some s) (R.frame p) = (some ([], false), R.complete (some s)) := by
    intro s p
    have hfirst : R.step (some s) R.flag = (none, R.complete (some s)) := by
      simp [step_flag, htoggle]
    have hlast : R.step none R.flag = (some ([], false), []) := by simp [step_flag, complete]
    rw [frame, List.cons_append, Feed.run_cons, hfirst, Feed.andThen, Feed.run_append, run_outside
      (R.flag_not_mem_encode p), Feed.andThen_nil, Feed.run_singleton, hlast, List.append_nil]
  have hnone : ∀ ps : List (List α),
      (Feed.run R.step (some ([], false)) (ps.flatMap R.frame)).2 = [] := by
    intro ps
    induction ps with
    | nil => rfl
    | cons p ps ih =>
      rw [List.flatMap_cons, Feed.run_append, hskip, Feed.andThen, ih]
      simp [complete]
  cases ps with
  | nil => simp
  | cons p ps =>
    rw [List.flatMap_cons, Feed.run_append, hskip, Feed.andThen, hnone, complete]
    split_ifs <;> simp

/-- **When a reader finds the frames again**, after at most two of them: exactly if it does not
toggle, or is outside, or there are no contents that it can put out. -/
theorem resync_iff (R : FlagReader α) (s : Option (List α × Bool)) :
    (∀ ps : List (List α), (∀ p ∈ ps, R.Takes p) →
      ps.drop 2 <:+ (Feed.run R.step s (ps.flatMap R.frame)).2) ↔
    (R.toggle → s.isSome → ∀ p, ¬ R.Takes p) := by
  constructor
  · intro h htoggle hsome p hp
    obtain ⟨t, rfl⟩ := Option.isSome_iff_exists.1 hsome
    have hsuffix := h [p, p, p, p] (by simp [hp])
    have hlength := hsuffix.length_le
    have hone := run_frames_inside htoggle t [p, p, p, p]
    simp only [List.drop_succ_cons, List.drop_zero, List.length_cons] at hlength
    omega
  · intro h ps hps
    by_cases hready : R.Ready s
    · exact (List.drop_suffix 2 ps).trans (run_frames hready hps)
    · -- inside a frame, with flags that toggle, there are no frames to find
      simp only [Ready, Classical.not_imp] at hready
      have hnone := h hready.1 (Option.isSome_iff_ne_none.2 hready.2)
      cases ps with
      | nil => exact List.nil_suffix
      | cons p ps => exact absurd (hps p List.mem_cons_self) (hnone p)

end FlagReader

/-! ## Frames with a command -/

/-- A reader of frames whose first symbol is a command.  It collects at most `limit` symbols of a
frame that it `wants`, and puts out an item for it. -/
structure CommandReader (α : Type u) (κ : Type v) (φ : Type w) extends Stuffing α where
  command : α → κ
  wants : κ → Bool
  item : κ → List α → φ
  limit : ℤ

/-- Outside of frames; after a flag; or inside a frame, with its command, what was collected, and
whether the next symbol is a substitute. -/
inductive CommandState (α : Type u) (κ : Type v) where
  | outside
  | opened
  | inside (c : κ) (data : List α) (escape : Bool)

namespace CommandReader

variable {α : Type u} [DecidableEq α] {κ : Type v} {φ : Type w} (R : CommandReader α κ φ)

def stepFlag : CommandState α κ → CommandState α κ × List φ
  | .outside => (.opened, [])
  | .opened => (.opened, [])
  | .inside c data _ => if R.wants c then (.outside, [R.item c data]) else (.opened, [])

def step (s : CommandState α κ) (a : α) : CommandState α κ × List φ :=
  if a = R.flag then R.stepFlag s
  else
    match s with
    | .outside => (.outside, [])
    | .opened => (.inside (R.command a) [] false, [])
    | .inside c data escape =>
      if R.wants c = false then (s, [])
      else if R.limit ≤ data.length then (.outside, [])
      else if a = R.esc then (.inside c data true, [])
      else (.inside c (data ++ [if escape then R.unsub a else a]) false, [])

def frame (cmd : α) (p : List α) : List α := R.flag :: cmd :: R.encode p ++ [R.flag]

structure Takes (cmd : α) (p : List α) : Prop where
  cmd_ne : cmd ≠ R.flag
  wanted : R.wants (R.command cmd) = true
  length_le : p.length ≤ R.limit

variable {R} {as p : List α} {s : CommandState α κ} {ps : List (α × List α)} {cmd : α}

lemma step_flag (s : CommandState α κ) : R.step s R.flag = R.stepFlag s := by
  simp [step]

lemma collects {c : κ} (hc : R.wants c) : R.toStuffing.Collects R.step (.inside c) R.limit where
  plain data a hdata hflag hesc := by simp [step, hflag, hesc, hc, not_le.2 hdata]
  escape data hdata := by simp [step, R.esc_ne_flag, hc, not_le.2 hdata]
  escaped data a hdata hflag hesc := by simp [step, hflag, hesc, hc, not_le.2 hdata]

lemma run_outside (h : R.flag ∉ as) : Feed.run R.step .outside as = (.outside, []) := by
  induction as with
  | nil => rfl
  | cons a as ih =>
    have ha : a ≠ R.flag := by
      rintro rfl
      exact h List.mem_cons_self
    have hstep : R.step .outside a = (.outside, []) := by simp [step, ha]
    rw [Feed.run_cons, hstep]
    exact ih fun hmem => h (List.mem_cons_of_mem a hmem)

def Ready (s : CommandState α κ) : Prop := s = .outside ∨ s = .opened

lemma run_opened (hp : R.Takes cmd p) :
    Feed.run R.step .opened (cmd :: R.encode p ++ [R.flag]) =
      (.outside, [R.item (R.command cmd) p]) := by
  have hcmd : R.step .opened cmd = (.inside (R.command cmd) [] false, []) := by
    simp [step, hp.cmd_ne]
  have hroom : (([] : List α).length : ℤ) + p.length ≤ R.limit := by
    simpa using hp.length_le
  have hlast : R.step (.inside (R.command cmd) p false) R.flag =
      (.outside, [R.item (R.command cmd) p]) := by
    rw [step_flag, stepFlag, if_pos hp.wanted]
  rw [List.cons_append, Feed.run_cons, hcmd, Feed.andThen_nil, Feed.run_append, (collects
    hp.wanted).run_encode hroom, Feed.andThen_nil, List.nil_append, Feed.run_singleton, hlast]

/-- **One frame**, if the reader is ready. -/
lemma run_frame (hs : Ready s) (hp : R.Takes cmd p) :
    Feed.run R.step s (R.frame cmd p) = (.outside, [R.item (R.command cmd) p]) := by
  have hfirst : R.step s R.flag = (.opened, []) := by
    rcases hs with rfl | rfl <;> simp [step_flag, stepFlag]
  rw [frame, List.cons_append, Feed.run_cons, hfirst, Feed.andThen_nil, run_opened hp]

/-- **One frame** from any state: the reader is ready afterwards. -/
lemma ready_run_frame (s : CommandState α κ) (hp : R.Takes cmd p) :
    Ready (Feed.run R.step s (R.frame cmd p)).1 := by
  by_cases hs : Ready s
  · rw [run_frame hs hp]
    exact .inl rfl
  · rcases s with _ | _ | ⟨c, data, escape⟩
    · exact absurd (.inl rfl) hs
    · exact absurd (.inr rfl) hs
    · rw [frame, List.cons_append, Feed.run_cons, step_flag, stepFlag]
      by_cases hc : R.wants c
      · -- the first flag closes the frame that was read, and the new one is passed over
        have hpass : R.flag ∉ cmd :: R.encode p := by
          simp only [List.mem_cons, not_or]
          exact ⟨hp.cmd_ne.symm, R.flag_not_mem_encode p⟩
        rw [if_pos hc, Feed.andThen, Feed.run_append, run_outside hpass, Feed.andThen_nil,
          Feed.run_singleton, step_flag]
        exact .inr rfl
      · rw [if_neg hc, Feed.andThen_nil, run_opened hp]
        exact .inl rfl

/-- **A reader that is ready** puts out every frame that follows, and nothing else. -/
theorem run_frames (hs : Ready s) (hps : ∀ p ∈ ps, R.Takes p.1 p.2) :
    (Feed.run R.step s (ps.flatMap fun p => R.frame p.1 p.2)).2 =
      ps.map fun p => R.item (R.command p.1) p.2 := by
  refine Feed.run_flatMap ?_ hs
  intro t ht p hp
  rw [run_frame ht (hps p hp)]
  exact ⟨.inl rfl, rfl⟩

/-- **From any state** the reader loses one frame at most. -/
theorem run_frames_suffix (s : CommandState α κ) (hps : ∀ p ∈ ps, R.Takes p.1 p.2) :
    ((ps.drop 1).map fun p => R.item (R.command p.1) p.2) <:+
      (Feed.run R.step s (ps.flatMap fun p => R.frame p.1 p.2)).2 := by
  cases ps with
  | nil => exact List.nil_suffix
  | cons p ps =>
    rw [List.flatMap_cons, Feed.run_append, Feed.andThen,
      run_frames (ready_run_frame s (hps p List.mem_cons_self))
        fun q hq => hps q (List.mem_cons_of_mem p hq)]
    exact List.suffix_append _ _

/-! ### Frames for which there is room -/

def Full (R : CommandReader α κ φ) (s : CommandState α κ) : Prop :=
  ∃ c data escape, s = .inside c data escape ∧ R.wants c = true ∧ R.limit ≤ data.length

def Fits (R : CommandReader α κ φ) (s : CommandState α κ) (as : List α) : Prop :=
  Run.Along (fun s a => (R.step s a).1) (fun s a => a ≠ R.flag → ¬ R.Full s) s as

lemma fits_append {bs : List α} :
    R.Fits s (as ++ bs) ↔ R.Fits s as ∧ R.Fits (Feed.run R.step s as).1 bs := by
  rw [Fits, Run.along_append, Feed.run_fst]
  rfl

omit [DecidableEq α] in
lemma not_full_of_lt {c : κ} {data : List α} {escape : Bool} (h : data.length < R.limit) :
    ¬ R.Full (.inside c data escape) := by
  rintro ⟨c', data', escape', heq, -, hfull⟩
  cases heq
  omega

lemma fits_outside (h : R.flag ∉ as) : R.Fits .outside as := by
  induction as with
  | nil => exact Run.along_nil _ _
  | cons a as ih =>
    have ha : a ≠ R.flag := by
      rintro rfl
      exact h List.mem_cons_self
    have hstep : R.step .outside a = (.outside, []) := by simp [step, ha]
    simp only [Fits, Run.along_cons, hstep]
    refine ⟨?_, ih fun hmem => h (List.mem_cons_of_mem a hmem)⟩
    rintro - ⟨c, data, escape, heq, -⟩
    cases heq

lemma fits_stuff {c : κ} (hc : R.wants c) {data : List α} (hdata : data.length < R.limit)
    (a : α) : R.Fits (.inside c data false) (R.stuff a) := by
  unfold Stuffing.stuff
  split_ifs with ha
  · simp only [Fits, Run.along_cons, (collects hc).escape data hdata]
    exact ⟨fun _ => not_full_of_lt hdata, fun _ => not_full_of_lt hdata, Run.along_nil _ _⟩
  · exact ⟨fun _ => not_full_of_lt hdata, Run.along_nil _ _⟩

lemma fits_encode {c : κ} (hc : R.wants c) {data : List α}
    (hroom : data.length + p.length ≤ R.limit) : R.Fits (.inside c data false) (R.encode p) := by
  induction p generalizing data with
  | nil => exact Run.along_nil _ _
  | cons a p ih =>
    have hdata : data.length < R.limit := by
      simp only [List.length_cons] at hroom
      omega
    have hrest : (data ++ [a]).length + p.length ≤ R.limit := by
      simp only [List.length_append, List.length_cons, List.length_nil] at hroom ⊢
      omega
    rw [R.encode_cons, fits_append, (collects hc).stuff hdata]
    exact ⟨fits_stuff hc hdata a, ih hrest⟩

lemma fits_flag (s : CommandState α κ) : R.Fits s [R.flag] :=
  ⟨fun hne => absurd rfl hne, Run.along_nil _ _⟩

/-- **One frame fits**, whatever state the reader is in. -/
lemma fits_frame (s : CommandState α κ) (hp : R.Takes cmd p) : R.Fits s (R.frame cmd p) := by
  have hroom : (([] : List α).length : ℤ) + p.length ≤ R.limit := by
    simpa using hp.length_le
  have hopened : R.Fits .opened (cmd :: R.encode p) := by
    have hcmd : R.step .opened cmd = (.inside (R.command cmd) [] false, []) := by
      simp [step, hp.cmd_ne]
    simp only [Fits, Run.along_cons, hcmd]
    refine ⟨?_, fits_encode hp.wanted hroom⟩
    rintro - ⟨c, data, escape, heq, -⟩
    cases heq
  have houtside : R.Fits .outside (cmd :: R.encode p) := by
    refine fits_outside ?_
    simp only [List.mem_cons, not_or]
    exact ⟨hp.cmd_ne.symm, R.flag_not_mem_encode p⟩
  have hfirst : (R.step s R.flag).1 = .opened ∨ (R.step s R.flag).1 = .outside := by
    rw [step_flag]
    rcases s with _ | _ | ⟨c, data, escape⟩
    · exact .inl rfl
    · exact .inl rfl
    · rw [stepFlag]
      split_ifs
      · exact .inr rfl
      · exact .inl rfl
  have hsplit : R.frame cmd p = [R.flag] ++ ((cmd :: R.encode p) ++ [R.flag]) := rfl
  rw [hsplit, fits_append, fits_append, Feed.run_singleton]
  refine ⟨fits_flag s, ?_, fits_flag _⟩
  rcases hfirst with hfirst | hfirst
  · rw [hfirst]
    exact hopened
  · rw [hfirst]
    exact houtside

/-- **Frames fit** if each of them can be put out. -/
theorem fits_frames (s : CommandState α κ) (hps : ∀ p ∈ ps, R.Takes p.1 p.2) :
    R.Fits s (ps.flatMap fun p => R.frame p.1 p.2) := by
  induction ps generalizing s with
  | nil => exact Run.along_nil _ _
  | cons p ps ih =>
    rw [List.flatMap_cons, fits_append]
    exact ⟨fits_frame s (hps p List.mem_cons_self),
      ih _ fun q hq => hps q (List.mem_cons_of_mem p hq)⟩

/-! ### Frames that stand in a stream -/

section

variable (R : CommandReader α κ φ)

/-- There is room for the contents of a frame when `k` symbols of it are there: there is for each
symbol that is read, the last one included. -/
def Room (k : ℕ) (body : List α) : Prop :=
  body = [] ∨ ((k + body.dropLast.countP (· ≠ R.esc) : ℕ) : ℤ) < R.limit

/-- The frame that is read, of which `k` symbols are there, is complete. -/
def Closes (k : ℕ) (as : List α) : Prop :=
  ∃ body rest, as = body ++ R.flag :: rest ∧ R.flag ∉ body ∧ R.Room k body

/-- A command that is wanted follows, and its frame is complete. -/
def Opens (as : List α) : Prop :=
  ∃ cmd rest, as = cmd :: rest ∧ cmd ≠ R.flag ∧ R.wants (R.command cmd) = true ∧ R.Closes 0 rest

def HasFrame (as : List α) : Prop :=
  ∃ skipped rest, as = skipped ++ R.flag :: rest ∧ R.Opens rest

end

lemma hasFrame_flag : R.HasFrame (R.flag :: as) ↔ R.Opens as ∨ R.HasFrame as := by
  constructor
  · rintro ⟨skipped, rest, heq, hopens⟩
    cases skipped with
    | nil =>
      obtain ⟨-, rfl⟩ := List.cons.inj heq
      exact .inl hopens
    | cons b skipped =>
      obtain ⟨-, rfl⟩ := List.cons.inj heq
      exact .inr ⟨skipped, rest, rfl, hopens⟩
  · rintro (hopens | ⟨skipped, rest, rfl, hopens⟩)
    · exact ⟨[], as, rfl, hopens⟩
    · exact ⟨R.flag :: skipped, rest, rfl, hopens⟩

lemma hasFrame_cons {a : α} (ha : a ≠ R.flag) : R.HasFrame (a :: as) ↔ R.HasFrame as := by
  constructor
  · rintro ⟨skipped, rest, heq, hopens⟩
    cases skipped with
    | nil => exact absurd (List.cons.inj heq).1 ha
    | cons b skipped =>
      obtain ⟨-, rfl⟩ := List.cons.inj heq
      exact ⟨skipped, rest, rfl, hopens⟩
  · rintro ⟨skipped, rest, rfl, hopens⟩
    exact ⟨a :: skipped, rest, rfl, hopens⟩

lemma opens_cons {a : α} :
    R.Opens (a :: as) ↔ a ≠ R.flag ∧ R.wants (R.command a) ∧ R.Closes 0 as := by
  constructor
  · rintro ⟨cmd, rest, heq, h⟩
    obtain ⟨rfl, rfl⟩ := List.cons.inj heq
    exact h
  · intro h
    exact ⟨a, as, rfl, h⟩

lemma closes_flag (k : ℕ) (as : List α) : R.Closes k (R.flag :: as) :=
  ⟨[], as, rfl, List.not_mem_nil, .inl rfl⟩

lemma room_cons {k : ℕ} {a : α} {body : List α} :
    R.Room k (a :: body) ↔ k < R.limit ∧ R.Room (if a = R.esc then k else k + 1) body := by
  cases body with
  | nil => simp [Room]
  | cons b body =>
    have hcount : (a :: b :: body).dropLast.countP (· ≠ R.esc) =
        (b :: body).dropLast.countP (· ≠ R.esc) + if a = R.esc then 0 else 1 := by
      by_cases ha : a = R.esc
      · simp [ha]
      · simp [ha]
    simp only [Room, reduceCtorEq, false_or, hcount]
    split_ifs
    · omega
    · omega

lemma closes_cons {k : ℕ} {a : α} (ha : a ≠ R.flag) :
    R.Closes k (a :: as) ↔
      k < R.limit ∧ R.Closes (if a = R.esc then k else k + 1) as := by
  constructor
  · rintro ⟨body, rest, heq, hflag, hroom⟩
    cases body with
    | nil => exact absurd (List.cons.inj heq).1 ha
    | cons b body =>
      obtain ⟨rfl, rfl⟩ := List.cons.inj heq
      obtain ⟨hlt, hrest⟩ := room_cons.1 hroom
      exact ⟨hlt, body, rest, rfl, fun hmem => hflag (List.mem_cons_of_mem _ hmem), hrest⟩
  · rintro ⟨hlt, body, rest, rfl, hflag, hroom⟩
    refine ⟨a :: body, rest, rfl, ?_, room_cons.2 ⟨hlt, hroom⟩⟩
    simp [ha.symm, hflag]

/-- What has to stand in the stream for an item to come out, by the state of the reader. -/
def Gives (R : CommandReader α κ φ) (as : List α) : CommandState α κ → Prop
  | .outside => R.HasFrame as
  | .opened => R.Opens as ∨ R.HasFrame as
  | .inside c data _ => R.wants c = true ∧ R.Closes data.length as ∨ R.HasFrame as

/-- **When an item comes out**, from any state. -/
theorem run_ne_nil_iff (s : CommandState α κ) (as : List α) :
    (Feed.run R.step s as).2 ≠ [] ↔ R.Gives as s := by
  induction as generalizing s with
  | nil => cases s <;> simp [Gives, HasFrame, Opens, Closes]
  | cons a as ih =>
    rw [Feed.run_cons, Feed.andThen]
    by_cases ha : a = R.flag
    · subst ha
      rw [step_flag]
      cases s with
      | outside => simp [stepFlag, ih, Gives, hasFrame_flag]
      | opened => simp [stepFlag, ih, Gives, hasFrame_flag, opens_cons]
      | inside c data escape =>
        by_cases hc : R.wants c
        · simp [stepFlag, hc, Gives, closes_flag]
        · simp [stepFlag, hc, ih, Gives, hasFrame_flag]
    · cases s with
      | outside => simp [step, ha, ih, Gives, hasFrame_cons ha]
      | opened => simp [step, ha, ih, Gives, hasFrame_cons ha, opens_cons]
      | inside c data escape =>
        by_cases hc : R.wants c
        · by_cases hfull : R.limit ≤ data.length
          · simp [step, ha, hc, hfull, ih, Gives, hasFrame_cons ha, closes_cons ha]
          · by_cases hesc : a = R.esc
            · subst hesc
              simp [step, ha, hc, hfull, ih, Gives, hasFrame_cons ha, closes_cons ha,
                not_le.1 hfull]
            · simp [step, ha, hc, hfull, hesc, ih, Gives, hasFrame_cons ha, closes_cons ha,
                not_le.1 hfull]
        · simp [step, ha, hc, ih, Gives, hasFrame_cons ha]

end CommandReader

import Mathlib.Data.List.Chain
import Reticulum.Core.Bytes
import Reticulum.Core.Run

/-!
# Which announce becomes the path

An announce carries a **random blob** of ten bytes; the last five are the time at which it was
emitted.  Whether an announce replaces the path is up to `shouldUpdateAnnouncePath`
(`pkg/transport/path_selection.go`).  Two things do not come out as its comments have it:

* **Order matters.**  On more hops the loop over the blobs stops at the *first* one that is not
  older than the announce.  If this one is of the same time, and the path does not respond, the
  announce is taken although a later blob may be newer: `stale_announce_rejected_iff`.
* **The time is cut off.**  `announceEmitted` folds five bytes into 32 bits
  (`toNat_announceEmitted`).  A newer announce on the other side of a multiple of 2³² is refused:
  `fresh_announces_accepted_iff`.
-/

namespace Reticulum

variable {c : UInt32} {emitted : UInt32} (blobs : List Bytes)

open List

/-! ## Random blobs -/

def maxRandomBlobs : ℕ := 64

def announceEmitted (randomBlob : Bytes) : UInt32 :=
  if randomBlob.length < 10 then 0
  else Bytes.foldUint32 ((randomBlob.drop 5).take 5)

/-- The time at which an announce was emitted: all five bytes of it, and 0 if there are too few. -/
def emissionTime (randomBlob : Bytes) : ℕ :=
  if randomBlob.length < 10 then 0 else Bytes.toNat ((randomBlob.drop 5).take 5)

/-- **What the node compares is the time modulo 2³².** -/
lemma toNat_announceEmitted (randomBlob : Bytes) :
    (announceEmitted randomBlob).toNat = emissionTime randomBlob % 2 ^ 32 := by
  unfold announceEmitted emissionTime
  split
  · rfl
  · exact Bytes.toNat_foldUint32 _

/-- The newest of the times of some blobs. -/
def timebaseFromRandomBlobs : UInt32 :=
  blobs.foldl
    (fun base blob => if base < announceEmitted blob then announceEmitted blob else base) 0

def randomBlobKnown (blob : Bytes) : Bool := decide (blob ∈ blobs)

def appendRandomBlob (blob : Bytes) : List Bytes :=
  if randomBlobKnown blobs blob then blobs
  else
    let out := blobs ++ [blob]
    out.drop (out.length - maxRandomBlobs)

/-! ## Paths -/

/-- A path to a destination: the next hop, the interface, the number of hops, the random blobs of
the announces that made it, and when it expires, if it does. -/
structure Path where
  nextHop : Bytes
  iface : Option ℕ
  hopCount : UInt8
  randomBlobs : List Bytes
  expires : Option ℕ
deriving DecidableEq

def Path.LiveAt (path : Path) (now : ℕ) : Prop := ∀ expires ∈ path.expires, now < expires

instance (path : Path) (now : ℕ) : Decidable (path.LiveAt now) :=
  inferInstanceAs (Decidable (∀ expires ∈ path.expires, now < expires))

structure AnnouncePathInput where
  destinationKnown : Bool
  announceHops : UInt8
  randomBlob : Bytes
  now : ℕ
  announceAffinity : ℤ
  currentAffinity : ℤ
  affinityKnown : Bool
deriving DecidableEq

/-- The loop over the blobs of a path with fewer hops.  It ends at the first blob that is not older
than the announce; until then it keeps the newest. -/
def pathEmittedLoop (emitted : UInt32) : UInt32 → List Bytes → UInt32
  | pathEmitted, [] => pathEmitted
  | pathEmitted, blob :: blobs =>
    let v := announceEmitted blob
    if emitted ≤ v then v
    else pathEmittedLoop emitted (if pathEmitted < v then v else pathEmitted) blobs

def shouldUpdateAnnouncePath (existing : Option Path) (input : AnnouncePathInput)
    (pathUnresponsive : Bool) : Bool :=
  match existing with
  | none => true
  | some path =>
    if !input.destinationKnown then true
    else
      let emitted := announceEmitted input.randomBlob
      if input.announceHops ≤ path.hopCount then
        let pathTimebase := timebaseFromRandomBlobs path.randomBlobs
        let known := randomBlobKnown path.randomBlobs input.randomBlob
        if !known && decide (pathTimebase < emitted) then true
        else
          input.affinityKnown && decide (emitted = pathTimebase) &&
            decide (input.currentAffinity < input.announceAffinity)
      else
        let pathEmitted := pathEmittedLoop emitted 0 path.randomBlobs
        if ¬ path.LiveAt input.now then !randomBlobKnown path.randomBlobs input.randomBlob
        else if pathEmitted < emitted then !randomBlobKnown path.randomBlobs input.randomBlob
        else decide (emitted = pathEmitted) && pathUnresponsive

/-- The path that an announce makes, on an interface the node has.  The first blob is kept only if
it has the length an announce gives it. -/
def updatePathUnlocked (existing : Option Path) (nextHop : Bytes) (iface : ℕ) (hops : UInt8)
    (randomBlob : Bytes) (expires : ℕ) : Path where
  nextHop
  iface := some iface
  hopCount := hops
  randomBlobs :=
    match existing with
    | some path =>
      if 0 < path.randomBlobs.length then appendRandomBlob path.randomBlobs randomBlob
      else if randomBlob.length = 10 then appendRandomBlob [] randomBlob else []
    | none => if randomBlob.length = 10 then appendRandomBlob [] randomBlob else []
  expires := some expires

/-! ## The newest blob -/

lemma timebase_eq : timebaseFromRandomBlobs blobs = (blobs.map announceEmitted).foldl max 0 := by
  simp only [timebaseFromRandomBlobs, foldl_map, max_def_lt]

lemma foldl_max_lt_iff {l : List UInt32} {a : UInt32} :
    l.foldl max a < c ↔ a < c ∧ ∀ x ∈ l, x < c := by
  induction l generalizing a with
  | nil => simp
  | cons x l ih => rw [foldl_cons, ih, forall_mem_cons, max_lt_iff, and_assoc]

lemma foldl_max_le_iff {l : List UInt32} {a : UInt32} :
    l.foldl max a ≤ c ↔ a ≤ c ∧ ∀ x ∈ l, x ≤ c := by
  induction l generalizing a with
  | nil => simp
  | cons x l ih => rw [foldl_cons, ih, forall_mem_cons, max_le_iff, and_assoc]

lemma timebase_lt_iff {blobs : List Bytes} :
    timebaseFromRandomBlobs blobs < c ↔ 0 < c ∧ ∀ blob ∈ blobs, announceEmitted blob < c := by
  rw [timebase_eq, foldl_max_lt_iff, forall_mem_map]

/-- **The time base of a list of blobs is the newest of their times.** -/
lemma timebase_le_iff {blobs : List Bytes} :
    timebaseFromRandomBlobs blobs ≤ c ↔ ∀ blob ∈ blobs, announceEmitted blob ≤ c := by
  rw [timebase_eq, foldl_max_le_iff, forall_mem_map]
  simp

lemma timebase_perm {blobs blobs' : List Bytes} (h : blobs.Perm blobs') :
    timebaseFromRandomBlobs blobs = timebaseFromRandomBlobs blobs' := by
  apply le_antisymm
  · rw [timebase_le_iff]
    intro blob hblob
    exact timebase_le_iff.1 le_rfl blob (h.mem_iff.1 hblob)
  · rw [timebase_le_iff]
    intro blob hblob
    exact timebase_le_iff.1 le_rfl blob (h.mem_iff.2 hblob)

/-! ## The loop that stops early -/

lemma pathEmittedLoop_lt_iff {pathEmitted : UInt32} {blobs : List Bytes} :
    pathEmittedLoop emitted pathEmitted blobs < emitted
      ↔ pathEmitted < emitted ∧ ∀ blob ∈ blobs, announceEmitted blob < emitted := by
  induction blobs generalizing pathEmitted with
  | nil => simp [pathEmittedLoop]
  | cons blob blobs ih =>
    simp only [pathEmittedLoop]
    by_cases h : emitted ≤ announceEmitted blob
    · simp [h, not_lt.2 h]
    · have hlt := not_le.1 h
      rw [if_neg h, ih]
      split_ifs with hv
      · simp [hv.trans hlt]
      · simp [hlt]

lemma pathEmittedLoop_mem {pathEmitted : UInt32} {blobs : List Bytes}
    (h : ∃ blob ∈ blobs, emitted ≤ announceEmitted blob) :
    ∃ blob ∈ blobs, emitted ≤ announceEmitted blob ∧
      pathEmittedLoop emitted pathEmitted blobs = announceEmitted blob := by
  induction blobs generalizing pathEmitted with
  | nil => simp at h
  | cons blob blobs ih =>
    by_cases hv : emitted ≤ announceEmitted blob
    · exact ⟨blob, mem_cons_self, hv, by simp [pathEmittedLoop, hv]⟩
    · have hrest : ∃ blob ∈ blobs, emitted ≤ announceEmitted blob := by
        simpa [hv] using h
      simp only [pathEmittedLoop, if_neg hv]
      obtain ⟨b, hb, hle, heq⟩ := ih hrest
      exact ⟨b, mem_cons_of_mem blob hb, hle, heq⟩

/-- The announce has been emitted at the time of one remembered blob, and before another. -/
def BetweenBlobs (path : Path) (emitted : UInt32) : Prop :=
  (∃ blob ∈ path.randomBlobs, announceEmitted blob = emitted) ∧
    ∃ blob ∈ path.randomBlobs, emitted < announceEmitted blob

/-- Where the announce is not between blobs, it does not depend on their order whether the loop ends
at the time of the announce. -/
lemma pathEmittedLoop_eq_iff {path : Path} (h : ¬ BetweenBlobs path emitted) :
    pathEmittedLoop emitted 0 path.randomBlobs = emitted
      ↔ (∃ blob ∈ path.randomBlobs, announceEmitted blob = emitted) ∨
        (emitted = 0 ∧ path.randomBlobs = []) := by
  by_cases hex : ∃ blob ∈ path.randomBlobs, emitted ≤ announceEmitted blob
  · obtain ⟨b, hb, hle, heq⟩ := @pathEmittedLoop_mem emitted 0 _ hex
    rw [heq]
    constructor
    · intro hbe
      exact .inl ⟨b, hb, hbe⟩
    · rintro (heqb | ⟨-, hnil⟩)
      · by_contra hne
        exact h ⟨heqb, b, hb, lt_of_le_of_ne hle (symm hne)⟩
      · rw [hnil] at hb
        cases hb
  · push Not at hex
    constructor
    · intro hloop
      right
      -- all blobs are older, and still the loop has not ended below: there was nothing to look at
      have hzero : ¬ 0 < emitted := by
        intro hpos
        exact absurd (pathEmittedLoop_lt_iff.2 ⟨hpos, hex⟩) (not_lt.2 hloop.ge)
      have hemitted : emitted = 0 := le_antisymm (not_lt.1 hzero) (UInt32.zero_le)
      refine ⟨hemitted, eq_nil_iff_forall_not_mem.2 ?_⟩
      intro blob hblob
      exact absurd (hex blob hblob) (by simp [hemitted])
    · rintro (⟨blob, hblob, heq⟩ | ⟨hemitted, hnil⟩)
      · exact absurd (hex blob hblob) (not_lt.2 heq.ge)
      · rw [hnil, hemitted, pathEmittedLoop]

/-! ## Stale announces -/

section Stale

variable {path : Path} {input : AnnouncePathInput} {pathUnresponsive : Bool}

lemma shouldUpdate_of_le (path : Path) (hknown : input.destinationKnown)
    (hops : input.announceHops ≤ path.hopCount) :
    shouldUpdateAnnouncePath (some path) input pathUnresponsive ↔
      (input.randomBlob ∉ path.randomBlobs ∧
          timebaseFromRandomBlobs path.randomBlobs < announceEmitted input.randomBlob) ∨
        (input.affinityKnown ∧
          announceEmitted input.randomBlob = timebaseFromRandomBlobs path.randomBlobs ∧
          input.currentAffinity < input.announceAffinity) := by
  simp only [shouldUpdateAnnouncePath, hknown, hops, randomBlobKnown, if_true]
  by_cases hnew : input.randomBlob ∉ path.randomBlobs ∧
      timebaseFromRandomBlobs path.randomBlobs < announceEmitted input.randomBlob
  · simp [hnew]
  · simp [and_assoc]

lemma shouldUpdate_of_lt (path : Path) (hknown : input.destinationKnown)
    (hlive : path.LiveAt input.now) (hops : path.hopCount < input.announceHops) :
    shouldUpdateAnnouncePath (some path) input pathUnresponsive ↔
      ((∀ blob ∈ path.randomBlobs, announceEmitted blob < announceEmitted input.randomBlob) ∧
          0 < announceEmitted input.randomBlob) ∨ (pathUnresponsive ∧
          pathEmittedLoop (announceEmitted input.randomBlob) 0 path.randomBlobs =
            announceEmitted input.randomBlob) := by
  have hops : ¬ input.announceHops ≤ path.hopCount := UInt8.not_le.2 hops
  simp only [shouldUpdateAnnouncePath, hknown, hops, hlive, randomBlobKnown, Bool.not_true,
    Bool.false_eq_true, not_true_eq_false, if_false]
  by_cases hlt : pathEmittedLoop (announceEmitted input.randomBlob) 0 path.randomBlobs <
      announceEmitted input.randomBlob
  · obtain ⟨hpos, hall⟩ := pathEmittedLoop_lt_iff.1 hlt
    -- a blob that is known is not older than itself
    have hnew : input.randomBlob ∉ path.randomBlobs := by
      intro hmem
      exact lt_irrefl _ (hall _ hmem)
    simp only [hlt, hnew, if_true, decide_false, Bool.not_false, true_iff]
    exact .inl ⟨hall, hpos⟩
  · have hnot : ¬ ((∀ blob ∈ path.randomBlobs,
        announceEmitted blob < announceEmitted input.randomBlob) ∧
          0 < announceEmitted input.randomBlob) := by
      rintro ⟨hall, hpos⟩
      exact hlt (pathEmittedLoop_lt_iff.2 ⟨hpos, hall⟩)
    simp only [hlt, hnot, if_false, false_or, Bool.and_eq_true, decide_eq_true_eq]
    exact ⟨fun h => ⟨h.2, h.1.symm⟩, fun h => ⟨h.2.symm, h.1⟩⟩

section

variable (path : Path) (input : AnnouncePathInput) (pathUnresponsive : Bool)

/-- No reordering of the blobs makes a difference. -/
def OrderFree : Prop :=
  ∀ blobs, blobs.Perm path.randomBlobs →
    shouldUpdateAnnouncePath (some { path with randomBlobs := blobs }) input pathUnresponsive =
      shouldUpdateAnnouncePath (some path) input pathUnresponsive

/-- The decision is sound if no announce older than a remembered blob is taken, and no reordering of
the blobs makes a difference. -/
def RejectsStale : Prop :=
  (shouldUpdateAnnouncePath (some path) input pathUnresponsive = true →
    ∀ blob ∈ path.randomBlobs, emissionTime blob ≤ emissionTime input.randomBlob) ∧
  OrderFree path input pathUnresponsive

/-- An announce that looks as new as the newest blob is preferred: for the affinity of its
interface, or, on more hops, because the path does not respond. -/
def WinsTie : Prop :=
  if input.announceHops ≤ path.hopCount then
    input.affinityKnown = true ∧ input.currentAffinity < input.announceAffinity
  else pathUnresponsive = true

/-- Modulo 2³² the time of the announce is later than those of all blobs, or is not earlier and wins
the tie. -/
def LooksNew : Prop :=
  (∀ blob ∈ path.randomBlobs, announceEmitted blob < announceEmitted input.randomBlob) ∨
    WinsTie path input pathUnresponsive ∧
      ∀ blob ∈ path.randomBlobs, announceEmitted blob ≤ announceEmitted input.randomBlob

/-- The announce is older than a remembered blob, but does not look so. -/
def PassesForNew : Prop :=
  (∃ blob ∈ path.randomBlobs, emissionTime input.randomBlob < emissionTime blob) ∧
    LooksNew path input pathUnresponsive

end

lemma orderFree_of_le (hknown : input.destinationKnown)
    (hops : input.announceHops ≤ path.hopCount) : OrderFree path input pathUnresponsive := by
  intro blobs hperm
  rw [Bool.eq_iff_iff, shouldUpdate_of_le path hknown hops,
    shouldUpdate_of_le { path with randomBlobs := blobs } hknown hops]
  simp [timebase_perm hperm, hperm.mem_iff]

lemma betweenBlobs_perm {blobs : List Bytes} (hperm : blobs.Perm path.randomBlobs)
    (emitted : UInt32) :
    BetweenBlobs { path with randomBlobs := blobs } emitted ↔ BetweenBlobs path emitted := by
  simp [BetweenBlobs, hperm.mem_iff]

lemma orderFree_of_lt (hknown : input.destinationKnown)
    (hlive : path.LiveAt input.now) (hops : path.hopCount < input.announceHops)
    (h : ¬ (pathUnresponsive ∧ BetweenBlobs path (announceEmitted input.randomBlob))) :
    OrderFree path input pathUnresponsive := by
  intro blobs hperm
  rw [Bool.eq_iff_iff, shouldUpdate_of_lt path hknown hlive hops,
    shouldUpdate_of_lt { path with randomBlobs := blobs } hknown hlive hops]
  simp only [hperm.mem_iff]
  refine or_congr_right (and_congr_right ?_)
  intro hun
  have hpath : ¬ BetweenBlobs path (announceEmitted input.randomBlob) := fun hb => h ⟨hun, hb⟩
  rw [pathEmittedLoop_eq_iff hpath,
    pathEmittedLoop_eq_iff (mt (betweenBlobs_perm hperm _).1 hpath)]
  simp [hperm.mem_iff, ← length_eq_zero_iff, hperm.length_eq]

/-- Whether the announce is taken, where there are blobs to compare it with. -/
lemma shouldUpdate_of_le_iff (hknown : input.destinationKnown)
    (hops : input.announceHops ≤ path.hopCount) (hne : path.randomBlobs ≠ []) :
    shouldUpdateAnnouncePath (some path) input pathUnresponsive ↔
      LooksNew path input pathUnresponsive := by
  obtain ⟨first, hfirst⟩ := exists_mem_of_ne_nil _ hne
  rw [shouldUpdate_of_le path hknown hops, LooksNew, WinsTie, if_pos hops, ← timebase_le_iff]
  constructor
  · rintro (⟨-, hlt⟩ | ⟨haff, heq, htie⟩)
    · exact .inl (timebase_lt_iff.1 hlt).2
    · exact .inr ⟨⟨haff, htie⟩, heq.ge⟩
  · rintro (hall | ⟨⟨haff, htie⟩, hle⟩)
    · refine .inl ⟨fun hmem => lt_irrefl _ (hall _ hmem), timebase_lt_iff.2 ⟨?_, hall⟩⟩
      exact UInt32.zero_le.trans_lt (hall first hfirst)
    · rcases hle.lt_or_eq with hlt | heq
      · obtain ⟨hpos, hall⟩ := timebase_lt_iff.1 hlt
        exact .inl ⟨fun hmem => lt_irrefl _ (hall _ hmem), hlt⟩
      · exact .inr ⟨haff, heq.symm, htie⟩

lemma shouldUpdate_of_lt_iff (hknown : input.destinationKnown)
    (hlive : path.LiveAt input.now) (hops : path.hopCount < input.announceHops)
    (h : ¬ (pathUnresponsive ∧ BetweenBlobs path (announceEmitted input.randomBlob)))
    (hne : path.randomBlobs ≠ []) : shouldUpdateAnnouncePath (some path) input pathUnresponsive ↔
      LooksNew path input pathUnresponsive := by
  obtain ⟨first, hfirst⟩ := exists_mem_of_ne_nil _ hne
  rw [shouldUpdate_of_lt path hknown hlive hops, LooksNew, WinsTie, if_neg (UInt8.not_le.2 hops)]
  constructor
  · rintro (⟨hall, -⟩ | ⟨hun, hloop⟩)
    · exact .inl hall
    · -- the loop has ended at a blob of the same time, so no other one looks newer
      have hbetween : ¬ BetweenBlobs path (announceEmitted input.randomBlob) :=
        fun hb => h ⟨hun, hb⟩
      obtain hsame | ⟨-, hnil⟩ := (pathEmittedLoop_eq_iff hbetween).1 hloop
      · refine .inr ⟨hun, fun blob hblob => not_lt.1 fun hlt => ?_⟩
        exact hbetween ⟨hsame, blob, hblob, hlt⟩
      · exact absurd hnil hne
  · rintro (hall | ⟨hun, hle⟩)
    · exact .inl ⟨hall, UInt32.zero_le.trans_lt (hall first hfirst)⟩
    · by_cases hsame : ∃ blob ∈ path.randomBlobs,
          announceEmitted blob = announceEmitted input.randomBlob
      · have hbetween : ¬ BetweenBlobs path (announceEmitted input.randomBlob) :=
          fun hb => h ⟨hun, hb⟩
        exact .inr ⟨hun, (pathEmittedLoop_eq_iff hbetween).2 (.inl hsame)⟩
      · have hall : ∀ blob ∈ path.randomBlobs,
            announceEmitted blob < announceEmitted input.randomBlob := by
          intro blob hblob
          exact lt_of_le_of_ne (hle blob hblob) fun heq => hsame ⟨blob, hblob, heq⟩
        exact .inl ⟨hall, UInt32.zero_le.trans_lt (hall first hfirst)⟩

lemma not_rejectsStale (hknown : input.destinationKnown) (hlive : path.LiveAt input.now)
    (hops : path.hopCount < input.announceHops)
    (h : BetweenBlobs path (announceEmitted input.randomBlob)) :
    ¬ RejectsStale path input true := by
  rintro ⟨-, hperm⟩
  obtain ⟨⟨same, hsame, heq⟩, newer, hnewer, hlt⟩ := h
  -- put the blob of the same time in front, and the announce is taken
  have htaken : shouldUpdateAnnouncePath (some path) input true := by
    rw [← hperm _ (perm_cons_erase hsame).symm,
      shouldUpdate_of_lt { path with randomBlobs := same :: _ } hknown hlive hops]
    exact .inr ⟨rfl, by simp [pathEmittedLoop, heq]⟩
  -- put the newer one in front, and it is not
  rw [← hperm _ (perm_cons_erase hnewer).symm,
    shouldUpdate_of_lt { path with randomBlobs := newer :: _ } hknown hlive hops] at htaken
  rcases htaken with ⟨hall, -⟩ | ⟨-, hloop⟩
  · exact lt_asymm hlt (hall newer mem_cons_self)
  · simp only [pathEmittedLoop, hlt.le] at hloop
    exact hlt.ne' hloop

/-- Where the order makes no difference, stale announces are rejected unless they pass for new. -/
lemma OrderFree.rejectsStale_iff (hfree : OrderFree path input pathUnresponsive)
    (htaken : path.randomBlobs ≠ [] →
      (shouldUpdateAnnouncePath (some path) input pathUnresponsive ↔
        LooksNew path input pathUnresponsive)) :
    RejectsStale path input pathUnresponsive ↔ ¬ PassesForNew path input pathUnresponsive := by
  constructor
  · rintro ⟨hstale, -⟩ ⟨⟨blob, hblob, hlt⟩, hnew⟩
    exact not_le.2 hlt (hstale ((htaken (ne_nil_of_mem hblob)).2 hnew) blob hblob)
  · refine fun hpasses => ⟨fun hupdate blob hblob => not_lt.1 fun hlt => ?_, hfree⟩
    exact hpasses ⟨⟨blob, hblob, hlt⟩, (htaken (ne_nil_of_mem hblob)).1 hupdate⟩

/-- **Stale announces and the order of the blobs.**  For every path that has not expired, whatever
blobs it remembers, and every announce: no announce that is older than a remembered blob is taken,
and no reordering of the blobs makes a difference, *exactly* unless

* the announce comes on more hops, the path does not respond, and the announce looks as old as one
  remembered blob and older than another, or
* the announce is older than a blob and does not look so, as the times are compared modulo 2³². -/
theorem stale_announce_rejected_iff (path : Path) (input : AnnouncePathInput)
    (pathUnresponsive : Bool) (hknown : input.destinationKnown = true)
    (hlive : path.LiveAt input.now) :
    RejectsStale path input pathUnresponsive ↔
      ¬ (path.hopCount < input.announceHops ∧ pathUnresponsive = true ∧
        BetweenBlobs path (announceEmitted input.randomBlob)) ∧
      ¬ PassesForNew path input pathUnresponsive := by
  by_cases hops : path.hopCount < input.announceHops
  · by_cases hbetween : pathUnresponsive = true ∧
        BetweenBlobs path (announceEmitted input.randomBlob)
    · obtain ⟨rfl, hb⟩ := hbetween
      exact iff_of_false (not_rejectsStale hknown hlive hops hb) fun h => h.1 ⟨hops, rfl, hb⟩
    · rw [(orderFree_of_lt hknown hlive hops hbetween).rejectsStale_iff
        (shouldUpdate_of_lt_iff hknown hlive hops hbetween)]
      simp only [hops, hbetween, and_false, not_false_eq_true, true_and]
  · have hle := UInt8.not_lt.1 hops
    rw [(orderFree_of_le hknown hle).rejectsStale_iff (shouldUpdate_of_le_iff hknown hle)]
    simp [hops]

end Stale

def unresponsivePath : Path where
  nextHop := []
  iface := some 0
  hopCount := 1
  randomBlobs := [[0, 0, 0, 0, 0, 0, 0, 0, 0, 1], [0, 0, 0, 0, 0, 0, 0, 0, 0, 2]]
  expires := none

def repeatedAnnounce : AnnouncePathInput where
  destinationKnown := true
  announceHops := 2
  randomBlob := [0, 0, 0, 0, 0, 0, 0, 0, 0, 1]
  now := 0
  announceAffinity := 0
  currentAffinity := 0
  affinityKnown := true

/-- The repeated announce is taken although a remembered blob is newer, and is not taken if the
blobs stand in the other order. -/
theorem repeatedAnnounce_taken :
    unresponsivePath.LiveAt repeatedAnnounce.now ∧
      shouldUpdateAnnouncePath (some unresponsivePath) repeatedAnnounce true = true ∧
      (∃ blob ∈ unresponsivePath.randomBlobs,
        emissionTime repeatedAnnounce.randomBlob < emissionTime blob) ∧
      shouldUpdateAnnouncePath
        (some { unresponsivePath with randomBlobs := unresponsivePath.randomBlobs.reverse })
        repeatedAnnounce true = false ∧
      ¬ RejectsStale unresponsivePath repeatedAnnounce true := by
  have hnewer : ∃ blob ∈ unresponsivePath.randomBlobs,
      emissionTime repeatedAnnounce.randomBlob < emissionTime blob := by decide
  refine ⟨by decide, by decide, hnewer, by decide, ?_⟩
  rintro ⟨hstale, -⟩
  obtain ⟨blob, hblob, hlt⟩ := hnewer
  exact not_le.2 hlt (hstale (by decide) blob hblob)

/-- The same announce does not replace a path that responds. -/
theorem repeatedAnnounce_rejected :
    unresponsivePath.LiveAt repeatedAnnounce.now ∧
      RejectsStale unresponsivePath repeatedAnnounce false :=
  ⟨by decide, (stale_announce_rejected_iff unresponsivePath repeatedAnnounce false rfl
    (by decide)).2 ⟨by simp, by unfold PassesForNew LooksNew WinsTie; decide⟩⟩

/-! ## Sequences of announces -/

lemma announceEmitted_lt_iff (b₁ b₂ : Bytes) :
    announceEmitted b₁ < announceEmitted b₂ ↔
      emissionTime b₁ % 2 ^ 32 < emissionTime b₂ % 2 ^ 32 := by
  rw [UInt32.lt_iff_toNat_lt, toNat_announceEmitted, toNat_announceEmitted]

lemma announceEmitted_eq_iff (b₁ b₂ : Bytes) :
    announceEmitted b₁ = announceEmitted b₂ ↔
      emissionTime b₁ % 2 ^ 32 = emissionTime b₂ % 2 ^ 32 := by
  rw [← UInt32.toNat_inj, toNat_announceEmitted, toNat_announceEmitted]

/-- An announce of the destination, with what the node finds when it arrives: the time, the
affinities of the two interfaces, and whether the path responds. -/
structure Announce where
  randomBlob : Bytes
  length_randomBlob : randomBlob.length = 10
  nextHop : Bytes
  iface : ℕ
  now : ℕ
  expires : ℕ
  announceAffinity : ℤ
  currentAffinity : ℤ
  affinityKnown : Bool
  pathUnresponsive : Bool

namespace Announce

def input (hops : UInt8) (existing : Option Path) (a : Announce) : AnnouncePathInput where
  destinationKnown := existing.isSome
  announceHops := hops
  randomBlob := a.randomBlob
  now := a.now
  announceAffinity := a.announceAffinity
  currentAffinity := a.currentAffinity
  affinityKnown := a.affinityKnown

def Accepted (hops : UInt8) (existing : Option Path) (a : Announce) : Prop :=
  shouldUpdateAnnouncePath existing (a.input hops existing) a.pathUnresponsive = true

instance (hops : UInt8) (existing : Option Path) (a : Announce) :
    Decidable (a.Accepted hops existing) :=
  inferInstanceAs (Decidable (_ = true))

def receive (hops : UInt8) (existing : Option Path) (a : Announce) : Option Path :=
  if shouldUpdateAnnouncePath existing (a.input hops existing) a.pathUnresponsive then
    some (updatePathUnlocked existing a.nextHop a.iface hops a.randomBlob a.expires)
  else existing

/-- The announce `b` after `a` looks newer to the node: by its time modulo 2³², or, if that is the
same, by the affinity of its interface. -/
def LooksNewer (a b : Announce) : Prop :=
  emissionTime a.randomBlob % 2 ^ 32 < emissionTime b.randomBlob % 2 ^ 32 ∨
    (b.affinityKnown = true ∧
      emissionTime b.randomBlob % 2 ^ 32 = emissionTime a.randomBlob % 2 ^ 32 ∧
      b.currentAffinity < b.announceAffinity)

/-- The path of a destination whose announces all came on `hops` hops and were taken, `last` being
the latest. -/
structure MadeBy (hops : UInt8) (path : Path) (last : Announce) : Prop where
  hopCount : path.hopCount = hops
  last_mem : last.randomBlob ∈ path.randomBlobs
  timebase : timebaseFromRandomBlobs path.randomBlobs = announceEmitted last.randomBlob
  le_last : ∀ blob ∈ path.randomBlobs, emissionTime blob ≤ emissionTime last.randomBlob

lemma mem_appendRandomBlob {blobs : List Bytes} {blob : Bytes} (hnew : blob ∉ blobs) {b : Bytes}
    (h : b ∈ appendRandomBlob blobs blob) : b ∈ blobs ∨ b = blob := by
  simp only [appendRandomBlob, randomBlobKnown, hnew] at h
  simpa using mem_of_mem_drop h

lemma length_appendRandomBlob_le {blobs : List Bytes} (h : blobs.length ≤ maxRandomBlobs)
    (blob : Bytes) : (appendRandomBlob blobs blob).length ≤ maxRandomBlobs := by
  rw [appendRandomBlob]
  split
  · exact h
  · simp only [length_drop]
    omega

lemma self_mem_appendRandomBlob {blobs : List Bytes} {blob : Bytes} (hnew : blob ∉ blobs) :
    blob ∈ appendRandomBlob blobs blob := by
  simp only [appendRandomBlob, randomBlobKnown, hnew, maxRandomBlobs]
  rw [drop_append_of_le_length (by simp)]
  simp

lemma madeBy_first (hops : UInt8) (a : Announce) :
    ∃ path, receive hops none a = some path ∧ MadeBy hops path a := by
  have hblobs : appendRandomBlob [] a.randomBlob = [a.randomBlob] := by
    simp [appendRandomBlob, randomBlobKnown, maxRandomBlobs]
  refine ⟨updatePathUnlocked none a.nextHop a.iface hops a.randomBlob a.expires, rfl, rfl,
    ?_, ?_, ?_⟩
  all_goals simp only [updatePathUnlocked, a.length_randomBlob, hblobs]
  · exact mem_singleton_self _
  · simp [timebaseFromRandomBlobs, eq_comm]
  · simp

section Made

variable {hops : UInt8} {path : Path} {last a : Announce}

section

variable (hlt : emissionTime last.randomBlob < emissionTime a.randomBlob)
include hlt

lemma MadeBy.unknown (h : MadeBy hops path last) : a.randomBlob ∉ path.randomBlobs := by
  intro hmem
  exact absurd (h.le_last _ hmem) (not_le.2 hlt)

/-- **A later announce is taken exactly if it looks newer than the last one.** -/
lemma MadeBy.accepted_iff (h : MadeBy hops path last) :
    a.Accepted hops (some path) ↔ LooksNewer last a := by
  have hle : (a.input hops (some path)).announceHops ≤ path.hopCount := by
    rw [h.hopCount]
    exact UInt8.le_refl hops
  rw [Accepted, shouldUpdate_of_le path rfl hle, h.timebase, LooksNewer,
    ← announceEmitted_lt_iff, ← announceEmitted_eq_iff]
  simp [input, h.unknown hlt]

lemma MadeBy.receive (h : MadeBy hops path last) (hacc : a.Accepted hops (some path)) :
    ∃ path', receive hops (some path) a = some path' ∧ MadeBy hops path' a := by
  have hnew := h.unknown hlt
  have hpos : 0 < path.randomBlobs.length := length_pos_of_mem h.last_mem
  refine ⟨updatePathUnlocked (some path) a.nextHop a.iface hops a.randomBlob a.expires,
    if_pos hacc, rfl, ?_, ?_, ?_⟩
  all_goals simp only [updatePathUnlocked, hpos]
  · exact self_mem_appendRandomBlob hnew
  · -- the new blob is at least as new as the time base, hence as all others
    have hbase : timebaseFromRandomBlobs path.randomBlobs ≤ announceEmitted a.randomBlob := by
      rw [h.timebase]
      rcases (h.accepted_iff hlt).1 hacc with hlow | ⟨-, heq, -⟩
      · exact ((announceEmitted_lt_iff _ _).2 hlow).le
      · exact ((announceEmitted_eq_iff _ _).2 heq).ge
    apply le_antisymm
    · rw [timebase_le_iff]
      intro blob hblob
      rcases mem_appendRandomBlob hnew hblob with hold | rfl
      · exact timebase_le_iff.1 hbase blob hold
      · exact le_rfl
    · exact timebase_le_iff.1 le_rfl _ (self_mem_appendRandomBlob hnew)
  · intro blob hblob
    rcases mem_appendRandomBlob hnew hblob with hold | rfl
    · exact (h.le_last blob hold).trans hlt.le
    · exact le_rfl

end

lemma MadeBy.along_iff (h : MadeBy hops path last) {as : List Announce}
    (hinc : (last :: as).IsChain fun a b => emissionTime a.randomBlob < emissionTime b.randomBlob) :
    Run.Along (Announce.receive hops) (fun path a => a.Accepted hops path) (some path) as ↔
      (last :: as).IsChain LooksNewer := by
  induction as generalizing path last with
  | nil => simp
  | cons a as ih =>
    rw [isChain_cons_cons] at hinc
    rw [Run.along_cons, isChain_cons_cons, h.accepted_iff hinc.1]
    refine and_congr_right ?_
    intro hnewer
    obtain ⟨path', hreceive, h'⟩ := h.receive hinc.1 ((h.accepted_iff hinc.1).2 hnewer)
    rw [hreceive]
    exact ih h' hinc.2

end Made

/-- **Freshness is emission time modulo 2³².**  Of two blobs with full times, the one with the
earlier time is the earlier one to the node exactly if its time is so modulo 2³².  And of announces
of one destination that arrive on the same number of hops, each emitted after the one before, all
are taken exactly if each *looks* newer than the one before. -/
theorem fresh_announces_accepted_iff (b₁ b₂ : Bytes) (_h₁ : 10 ≤ b₁.length) (_h₂ : 10 ≤ b₂.length)
    (_hlt : emissionTime b₁ < emissionTime b₂) (hops : UInt8) (as : List Announce)
    (hinc : as.IsChain fun a b => emissionTime a.randomBlob < emissionTime b.randomBlob) :
    (announceEmitted b₁ < announceEmitted b₂ ↔
        emissionTime b₁ % 2 ^ 32 < emissionTime b₂ % 2 ^ 32) ∧
      (Run.Along (receive hops) (fun path a => a.Accepted hops path) none as ↔
        as.IsChain LooksNewer) := by
  constructor
  · exact announceEmitted_lt_iff b₁ b₂
  · cases as with
    | nil => simp
    | cons a as =>
      obtain ⟨path, hreceive, h⟩ := madeBy_first hops a
      rw [Run.along_cons, hreceive, h.along_iff hinc]
      exact and_iff_right rfl

def emittedAt (t₀ t₁ t₂ t₃ t₄ : UInt8) : Announce where
  randomBlob := [0, 0, 0, 0, 0, t₀, t₁, t₂, t₃, t₄]
  length_randomBlob := rfl
  nextHop := []
  iface := 0
  now := 0
  expires := 1
  announceAffinity := 0
  currentAffinity := 0
  affinityKnown := true
  pathUnresponsive := false

/-- An announce of the second after 2³² - 1 is older to the node, and not taken. -/
theorem announce_refused_at_wrap :
    let a := emittedAt 0 0xFF 0xFF 0xFF 0xFF
    let b := emittedAt 1 0 0 0 0
    emissionTime a.randomBlob < emissionTime b.randomBlob ∧
      ¬ announceEmitted a.randomBlob < announceEmitted b.randomBlob ∧
      ¬ Run.Along (receive 1) (fun path a => a.Accepted 1 path) none [a, b] := by
  decide

/-- Announces of three successive seconds are all taken. -/
theorem announces_accepted :
    let as := [emittedAt 0 0x69 0 0 1, emittedAt 0 0x69 0 0 2, emittedAt 0 0x69 0 0 3]
    announceEmitted (emittedAt 0 0x69 0 0 1).randomBlob <
        announceEmitted (emittedAt 0 0x69 0 0 2).randomBlob ∧
      Run.Along (receive 1) (fun path a => a.Accepted 1 path) none as := by
  intro as
  have hinc : as.IsChain fun a b => emissionTime a.randomBlob < emissionTime b.randomBlob := by
    decide
  have hnewer : as.IsChain LooksNewer := by
    simp only [as, isChain_cons_cons, isChain_singleton, LooksNewer]
    decide
  obtain ⟨hemitted, haccepted⟩ := fresh_announces_accepted_iff
    (emittedAt 0 0x69 0 0 1).randomBlob (emittedAt 0 0x69 0 0 2).randomBlob (by decide)
    (by decide) (by decide) 1 as hinc
  exact ⟨hemitted.2 (by decide), haccepted.2 hnewer⟩

end Announce

end Reticulum

import Mathlib.Algebra.Order.Field.Rat
import Reticulum.Core.IndexedQueue
import Reticulum.Core.Run

/-!
# Ingress control of announces

Each interface has an `IngressControl` (`pkg/rate`).  When announces come faster than a threshold, a
**burst** is active, and announces of destinations that are not known yet are *held*.  They are
handed out again one at a time, when the burst is over.

A burst ends only when an announce arrives: `processAnnounceHash` clears the flag, and
`releaseHeldAnnounce` returns nothing while it is set.  This is exactly when held announces are not
returned (**`releases_iff`**), and then they never are (`burst_never_released`).  Times are
nanoseconds since some start, and the zero `time.Time` is `none`.
-/

namespace Reticulum

open Option

/-! ## Constants -/

namespace Rate.Constants

def second : ℕ := 10 ^ 9

def defaultNewTime : ℕ := 2 * 60 * 60
def defaultBurstFreqNew : ℚ := 35 / 10
def defaultBurstFreq : ℚ := 12
def defaultBurstHold : ℕ := 60
def defaultBurstPenalty : ℕ := 300
def defaultMaxHeldAnnounces : ℕ := 256
def defaultHeldReleaseInterval : ℕ := 30

def minElapsedSeconds : ℚ := 1 / 100

def maxArrivalEntries : ℕ := 65536
def burstSampleMinimum : ℕ := 8

end Rate.Constants

open Rate.Constants

/-! ## Configuration -/

/-- The settings of an interface.  A duration or a size of zero stands for one that is not positive
and makes the default apply. -/
structure IngressControlConfig where
  enabled : Bool
  newTime : ℕ
  burstFreqNew : ℚ
  burstFreq : ℚ
  burstHold : ℕ
  burstPenalty : ℕ
  maxHeldAnnounces : ℕ
  heldReleaseInterval : ℕ
deriving DecidableEq

def newIngressControlConfig : IngressControlConfig where
  enabled := true
  newTime := defaultNewTime * second
  burstFreqNew := defaultBurstFreqNew
  burstFreq := defaultBurstFreq
  burstHold := defaultBurstHold * second
  burstPenalty := defaultBurstPenalty * second
  maxHeldAnnounces := defaultMaxHeldAnnounces
  heldReleaseInterval := defaultHeldReleaseInterval * second

/-- The settings with the defaults in place of those that are not positive. -/
def IngressControlConfig.withDefaults (cfg : IngressControlConfig) : IngressControlConfig :=
  let d := newIngressControlConfig
  { cfg with
    newTime := if cfg.newTime = 0 then d.newTime else cfg.newTime
    burstFreqNew := if cfg.burstFreqNew ≤ 0 then d.burstFreqNew else cfg.burstFreqNew
    burstFreq := if cfg.burstFreq ≤ 0 then d.burstFreq else cfg.burstFreq
    burstHold := if cfg.burstHold = 0 then d.burstHold else cfg.burstHold
    burstPenalty := if cfg.burstPenalty = 0 then d.burstPenalty else cfg.burstPenalty
    maxHeldAnnounces :=
      if cfg.maxHeldAnnounces = 0 then d.maxHeldAnnounces else cfg.maxHeldAnnounces
    heldReleaseInterval :=
      if cfg.heldReleaseInterval = 0 then d.heldReleaseInterval else cfg.heldReleaseInterval }

/-! ## The control -/

structure IngressHeld (H D : Type) where
  hash : H
  data : D
deriving DecidableEq

/-- The hashes `H` are the arrays of 32 bytes, and the packets `D` are not looked into. -/
structure IngressControl (H D : Type) where
  cfg : IngressControlConfig
  spawnedAt : ℕ
  arrivals : List ℕ
  heldQueue : List (IngressHeld H D)
  heldIndex : H → Option ℕ
  burstActive : Bool
  burstActivatedAt : Option ℕ
  burstCount : ℕ
  burstClearedAt : Option ℕ
  lastReleaseAt : Option ℕ

namespace IngressControl

variable {H D : Type}

def newIngressControlWith (cfg : IngressControlConfig) (now : ℕ) : IngressControl H D where
  cfg := cfg.withDefaults
  spawnedAt := now
  arrivals := []
  heldQueue := []
  heldIndex _ := none
  burstActive := false
  burstActivatedAt := none
  burstCount := 0
  burstClearedAt := none
  lastReleaseAt := none

section

variable (ic : IngressControl H D) (now : ℕ)

/-- The time is appended, those before the window are cut off, and the last
`maxArrivalEntries` are kept. -/
def recordArrivalLocked : IngressControl H D :=
  let arrivals := (ic.arrivals ++ [now]).dropWhile fun a => a + ic.cfg.burstHold < now
  { ic with arrivals := arrivals.drop (arrivals.length - maxArrivalEntries) }

lemma recordArrivalLocked_eq : ∃ arrivals, ic.recordArrivalLocked now = { ic with arrivals } :=
  ⟨_, rfl⟩

def currentFrequencyLocked : ℚ :=
  match ic.arrivals with
  | [] => 0
  | first :: rest =>
    if (first :: rest).length < burstSampleMinimum then 0
    else
      let window := ((now - first : ℕ) : ℚ) / second
      let window := if window < minElapsedSeconds then minElapsedSeconds else window
      (rest.length : ℚ) / window

def threshold : ℚ :=
  if now - ic.spawnedAt < ic.cfg.newTime then ic.cfg.burstFreqNew else ic.cfg.burstFreq

def updateBurst : IngressControl H D :=
  if ic.threshold now < ic.currentFrequencyLocked now then
    { ic with
      burstActivatedAt := if ic.burstActive then ic.burstActivatedAt else some now
      burstCount := if ic.burstActive then ic.burstCount else ic.burstCount + 1
      burstActive := true
      burstClearedAt := none }
  else if ic.burstActive then
    match ic.burstClearedAt with
    | none => { ic with burstClearedAt := some now }
    | some cleared =>
      if ic.cfg.burstHold ≤ now - cleared then { ic with burstActive := false } else ic
  else ic

/-- What an arrival can do to the burst: it is active and not cleared afterwards; or nothing; or it
is cleared now; or it ends, `burstHold` after it was cleared. -/
def BurstMoves (active : Bool) (cleared : Option ℕ) : Prop :=
  active = true ∧ cleared = none ∨
    active = ic.burstActive ∧ cleared = ic.burstClearedAt ∨
    active = true ∧ cleared = some now ∨
    ∃ c, active = false ∧ cleared = some c ∧ ic.burstClearedAt = some c ∧
      ic.cfg.burstHold ≤ now - c

lemma updateBurst_eq : ∃ active activatedAt count cleared, ic.updateBurst now = { ic with
            burstActive := active, burstActivatedAt := activatedAt, burstCount := count
            burstClearedAt := cleared } ∧
        ic.BurstMoves now active cleared := by
  by_cases hfreq : ic.threshold now < ic.currentFrequencyLocked now
  · exact ⟨_, _, _, _, if_pos hfreq, .inl ⟨rfl, rfl⟩⟩
  by_cases hactive : ic.burstActive
  · cases hcleared : ic.burstClearedAt with
    | none =>
      refine ⟨true, ic.burstActivatedAt, ic.burstCount, some now, ?_,
        .inr (.inr (.inl ⟨rfl, rfl⟩))⟩
      simp only [updateBurst, if_neg hfreq, if_pos hactive, hcleared]
      rw [hactive]
    | some c =>
      by_cases hhold : ic.cfg.burstHold ≤ now - c
      · refine ⟨false, ic.burstActivatedAt, ic.burstCount, some c, ?_,
          .inr (.inr (.inr ⟨c, rfl, rfl, hcleared, hhold⟩))⟩
        simp [updateBurst, if_neg hfreq, if_pos hactive, hcleared, if_pos hhold]
      · refine ⟨ic.burstActive, ic.burstActivatedAt, ic.burstCount, some c, ?_,
          .inr (.inl ⟨rfl, hcleared.symm⟩)⟩
        simp only [updateBurst, if_neg hfreq, if_pos hactive, hcleared, if_neg hhold]
        rw [← hcleared]
  · refine ⟨ic.burstActive, ic.burstActivatedAt, ic.burstCount, ic.burstClearedAt, ?_,
      .inr (.inl ⟨rfl, rfl⟩)⟩
    rw [updateBurst, if_neg hfreq, if_neg hactive]

end

variable [DecidableEq H]

/-- The part that holds the announce, unless it is held already or the queue is full. -/
def hold (ic : IngressControl H D) (announceHash : H) (announceData : D) : IngressControl H D :=
  if (ic.heldIndex announceHash).isSome then ic
  else if ic.cfg.maxHeldAnnounces ≤ ic.heldQueue.length then ic
  else
    { ic with
      heldIndex := Function.update ic.heldIndex announceHash (some ic.heldQueue.length)
      heldQueue := ic.heldQueue ++ [⟨announceHash, announceData⟩] }

def processAnnounceHash (ic : IngressControl H D) (now : ℕ) (announceHash : H) (announceData : D)
    (isNewDest : Bool) : IngressControl H D × Bool :=
  if !ic.cfg.enabled then (ic, true)
  else
    let ic := (ic.recordArrivalLocked now).updateBurst now
    if !ic.burstActive then (ic, true)
    else if !isNewDest then (ic, true)
    else (ic.hold announceHash announceData, false)

def releaseHeldAnnounce (ic : IngressControl H D) (now : ℕ) :
    IngressControl H D × Option (IngressHeld H D) :=
  match ic.heldQueue with
  | [] => (ic, none)
  | entry :: heldQueue =>
    if ic.burstActive then (ic, none)
    else if ic.burstClearedAt.any fun cleared =>
        now - cleared < ic.cfg.burstHold + ic.cfg.burstPenalty then (ic, none)
    else if ic.lastReleaseAt.any fun last => now - last < ic.cfg.heldReleaseInterval then (ic, none)
    else
      ({ ic with
          heldQueue
          heldIndex := IndexedQueue.reindex IngressHeld.hash heldQueue 0
            (Function.update ic.heldIndex entry.hash none)
          lastReleaseAt := some now },
        some entry)

/-! ### What a call does -/

variable {ic : IngressControl H D} {now : ℕ}

/-- What an announce can do to the queue: nothing, or it is appended, if it is not held already and
there is room. -/
def QueueMoves (ic : IngressControl H D) (entry : IngressHeld H D)
    (heldQueue : List (IngressHeld H D)) (heldIndex : H → Option ℕ) : Prop :=
  heldQueue = ic.heldQueue ∧ heldIndex = ic.heldIndex ∨
    ic.heldIndex entry.hash = none ∧ ic.heldQueue.length < ic.cfg.maxHeldAnnounces ∧
      heldQueue = ic.heldQueue ++ [entry] ∧
      heldIndex = Function.update ic.heldIndex entry.hash (some ic.heldQueue.length)

lemma hold_eq (ic : IngressControl H D) (announceHash : H) (announceData : D) :
    ∃ heldQueue heldIndex,
      ic.hold announceHash announceData = { ic with heldQueue, heldIndex } ∧
        ic.QueueMoves ⟨announceHash, announceData⟩ heldQueue heldIndex := by
  by_cases hdup : (ic.heldIndex announceHash).isSome
  · exact ⟨_, _, if_pos hdup, .inl ⟨rfl, rfl⟩⟩
  by_cases hfull : ic.cfg.maxHeldAnnounces ≤ ic.heldQueue.length
  · refine ⟨ic.heldQueue, ic.heldIndex, ?_, .inl ⟨rfl, rfl⟩⟩
    rw [hold, if_neg hdup, if_pos hfull]
  · refine ⟨_, _, ?_, .inr ⟨by simpa using hdup, not_le.1 hfull, rfl, rfl⟩⟩
    rw [hold, if_neg hdup, if_neg hfull]

/-- **An arrival** moves the burst and the queue, and nothing else that a release looks at. -/
lemma processAnnounceHash_eq (ic : IngressControl H D) (now : ℕ) (announceHash : H)
    (announceData : D) (isNewDest : Bool) :
    ∃ arrivals active activatedAt count cleared heldQueue heldIndex,
      (ic.processAnnounceHash now announceHash announceData isNewDest).1 =
          { ic with
            arrivals, burstActive := active, burstActivatedAt := activatedAt, burstCount := count
            burstClearedAt := cleared, heldQueue, heldIndex } ∧
        ic.BurstMoves now active cleared ∧
        ic.QueueMoves ⟨announceHash, announceData⟩ heldQueue heldIndex := by
  rw [processAnnounceHash]
  by_cases henabled : ic.cfg.enabled
  · simp only [henabled]
    obtain ⟨arrivals, harrivals⟩ := ic.recordArrivalLocked_eq now
    obtain ⟨active, activatedAt, count, cleared, hburst, hmoves⟩ :=
      (ic.recordArrivalLocked now).updateBurst_eq now
    rw [hburst, harrivals] at *
    by_cases hactive : active
    · by_cases hnew : isNewDest
      · obtain ⟨heldQueue, heldIndex, hhold, hqueue⟩ := hold_eq
          { ic with
            arrivals, burstActive := active, burstActivatedAt := activatedAt, burstCount := count
            burstClearedAt := cleared } announceHash announceData
        refine ⟨arrivals, active, activatedAt, count, cleared, heldQueue, heldIndex, ?_, hmoves,
          hqueue⟩
        simp only [hactive, hnew] at hhold ⊢
        exact hhold
      · refine ⟨arrivals, active, activatedAt, count, cleared, _, _, ?_, hmoves, .inl ⟨rfl, rfl⟩⟩
        simp [hnew]
    · refine ⟨arrivals, active, activatedAt, count, cleared, _, _, ?_, hmoves, .inl ⟨rfl, rfl⟩⟩
      simp [hactive]
  · refine ⟨ic.arrivals, ic.burstActive, ic.burstActivatedAt, ic.burstCount, ic.burstClearedAt,
      ic.heldQueue, ic.heldIndex, ?_, .inr (.inl ⟨rfl, rfl⟩), .inl ⟨rfl, rfl⟩⟩
    simp [henabled]

lemma release_cases (ic : IngressControl H D) (now : ℕ) :
    ic.releaseHeldAnnounce now = (ic, none) ∨
      ∃ entry heldQueue, ic.heldQueue = entry :: heldQueue ∧
        ic.releaseHeldAnnounce now =
          ({ ic with
              heldQueue
              heldIndex := IndexedQueue.reindex IngressHeld.hash heldQueue 0
                (Function.update ic.heldIndex entry.hash none)
              lastReleaseAt := some now },
            some entry) := by
  simp only [releaseHeldAnnounce]
  cases hqueue : ic.heldQueue with
  | nil => exact .inl rfl
  | cons entry heldQueue =>
    split_ifs
    · exact .inl rfl
    · exact .inl rfl
    · exact .inl rfl
    · exact .inr ⟨entry, heldQueue, rfl, rfl⟩

lemma release_of_burst (h : ic.burstActive) (now : ℕ) :
    ic.releaseHeldAnnounce now = (ic, none) := by
  simp only [releaseHeldAnnounce, h]
  cases ic.heldQueue <;> rfl

end IngressControl

/-! ## Histories -/

inductive IngressCall (H D : Type) where
  | announce (elapsed : ℕ) (announceHash : H) (announceData : D) (isNewDest : Bool)
  | release (elapsed : ℕ)
deriving DecidableEq

/-- A control with the time of the last call, the time of the last announce, and all that was held
and released so far. -/
structure IngressHistory (H D : Type) where
  ic : IngressControl H D
  now : ℕ
  lastArrival : Option ℕ
  held : List (IngressHeld H D)
  released : List (IngressHeld H D)

namespace IngressHistory

open IngressControl

variable {H D : Type}

def new (cfg : IngressControlConfig) (now : ℕ) : IngressHistory H D where
  ic := newIngressControlWith cfg now
  now
  lastArrival := none
  held := []
  released := []

variable [DecidableEq H]

def step (s : IngressHistory H D) : IngressCall H D → IngressHistory H D
  | .announce elapsed announceHash announceData isNewDest =>
    let now := s.now + elapsed
    let ic := (s.ic.processAnnounceHash now announceHash announceData isNewDest).1
    { s with
      ic, now, lastArrival := some now
      held := s.held ++ ic.heldQueue.drop s.ic.heldQueue.length }
  | .release elapsed =>
    let now := s.now + elapsed
    let (ic, entry) := s.ic.releaseHeldAnnounce now
    { s with ic, now, released := s.released ++ entry.toList }

/-- Queue and index describe the same announces, there are not too many of them, and those released
and those in the queue are those that were held, in this order. -/
structure Queued (s : IngressHistory H D) : Prop where
  indexed : IndexedQueue.Indexed IngressHeld.hash s.ic.heldQueue s.ic.heldIndex
  bounded : s.ic.heldQueue.length ≤ s.ic.cfg.maxHeldAnnounces
  inOrder : s.held = s.released ++ s.ic.heldQueue

/-- Burst hold, burst penalty and release interval have all elapsed since the last announce, and the
release interval since the last release. -/
def Elapsed (s : IngressHistory H D) (now : ℕ) : Prop :=
  (∀ arrival ∈ s.lastArrival, s.ic.cfg.burstHold ≤ now - arrival ∧
    s.ic.cfg.burstPenalty ≤ now - arrival ∧ s.ic.cfg.heldReleaseInterval ≤ now - arrival) ∧
  ∀ last ∈ s.ic.lastReleaseAt, s.ic.cfg.heldReleaseInterval ≤ now - last

/-- However long no announce arrives, once the times have elapsed the first held announce is
returned. -/
def Releases (s : IngressHistory H D) : Prop :=
  ∀ elapsed, s.Elapsed (s.now + elapsed) → s.ic.heldQueue ≠ [] →
    (s.ic.releaseHeldAnnounce (s.now + elapsed)).2 = s.ic.heldQueue.head?

/-! ### Every history -/

/-- The invariant.  The burst was cleared by an announce, and when it ended `burstHold` had passed
at the last announce. -/
structure Inv (s : IngressHistory H D) : Prop extends Queued s where
  arrived : ∀ arrival ∈ s.lastArrival, arrival ≤ s.now
  cleared : ∀ c ∈ s.ic.burstClearedAt, ∃ arrival ∈ s.lastArrival, c ≤ arrival ∧
    (s.ic.burstActive = false → s.ic.cfg.burstHold ≤ arrival - c)

variable {s : IngressHistory H D}

omit [DecidableEq H] in
lemma Inv.init (cfg : IngressControlConfig) (now : ℕ) : Inv (new cfg now : IngressHistory H D) where
  indexed := .nil _
  bounded := Nat.zero_le _
  inOrder := rfl
  arrived := by
    intro arrival h
    cases h
  cleared := by
    intro c h
    cases h

omit [DecidableEq H] in
lemma Inv.burstMoves (h : Inv s) {elapsed : ℕ} {active : Bool} {cleared : Option ℕ}
    (hmoves : s.ic.BurstMoves (s.now + elapsed) active cleared) :
    ∀ c ∈ cleared, c ≤ s.now + elapsed ∧
      (active = false → s.ic.cfg.burstHold ≤ s.now + elapsed - c) := by
  intro c hc
  rcases hmoves with ⟨-, rfl⟩ | ⟨rfl, rfl⟩ | ⟨rfl, rfl⟩ | ⟨c', rfl, rfl, hc', hhold⟩
  · cases hc
  · obtain ⟨arrival, harrival, hle, hend⟩ := h.cleared c hc
    have hnow := h.arrived arrival harrival
    refine ⟨by omega, ?_⟩
    intro hactive
    have := hend hactive
    omega
  · obtain rfl := some.inj hc
    refine ⟨le_rfl, ?_⟩
    intro hfalse
    cases hfalse
  · obtain rfl := some.inj hc
    obtain ⟨arrival, harrival, hle, -⟩ := h.cleared c' hc'
    have hnow := h.arrived arrival harrival
    refine ⟨by omega, ?_⟩
    intro _
    exact hhold

lemma Inv.queueMoves (h : Inv s) {entry : IngressHeld H D} {heldQueue : List (IngressHeld H D)}
    {heldIndex : H → Option ℕ} (hmoves : s.ic.QueueMoves entry heldQueue heldIndex) :
    IndexedQueue.Indexed IngressHeld.hash heldQueue heldIndex ∧
      heldQueue.length ≤ s.ic.cfg.maxHeldAnnounces ∧
      s.held ++ heldQueue.drop s.ic.heldQueue.length = s.released ++ heldQueue := by
  rcases hmoves with ⟨rfl, rfl⟩ | ⟨hnone, hroom, rfl, rfl⟩
  · refine ⟨h.indexed, h.bounded, ?_⟩
    rw [List.drop_length, List.append_nil, h.inOrder]
  · refine ⟨h.indexed.append hnone, ?_, ?_⟩
    · rw [List.length_append]
      exact hroom
    · rw [List.drop_left, h.inOrder, List.append_assoc]

lemma Inv.announce (h : Inv s) (elapsed : ℕ) (announceHash : H) (announceData : D)
    (isNewDest : Bool) : Inv (s.step (.announce elapsed announceHash announceData isNewDest)) := by
  obtain ⟨arrivals, active, activatedAt, count, cleared, heldQueue, heldIndex, heq, hburst,
    hqueue⟩ := s.ic.processAnnounceHash_eq (s.now + elapsed) announceHash announceData isNewDest
  obtain ⟨hindexed, hbounded, horder⟩ := h.queueMoves hqueue
  have hcleared := h.burstMoves hburst
  simp only [step, heq]
  constructor
  · exact ⟨hindexed, hbounded, horder⟩
  · intro arrival harrival
    obtain rfl := some.inj harrival
    exact le_rfl
  · intro c hc
    exact ⟨s.now + elapsed, rfl, hcleared c hc⟩

lemma Inv.release (h : Inv s) (elapsed : ℕ) : Inv (s.step (.release elapsed)) := by
  have harrived : ∀ arrival ∈ s.lastArrival, arrival ≤ s.now + elapsed := by
    intro arrival harrival
    exact (h.arrived arrival harrival).trans (Nat.le_add_right _ _)
  rcases s.ic.release_cases (s.now + elapsed) with hnone | ⟨entry, heldQueue, hqueue, hsome⟩
  · simp only [step, hnone, toList_none, List.append_nil]
    exact ⟨{ h with }, harrived, h.cleared⟩
  · have hindexed := h.indexed
    have hbounded := h.bounded
    have horder := h.inOrder
    rw [hqueue] at hindexed hbounded horder
    simp only [step, hsome]
    constructor
    · refine ⟨hindexed.pop, ?_, ?_⟩
      · exact (Nat.le_succ _).trans hbounded
      · rw [List.append_assoc]
        exact horder
    · exact harrived
    · exact h.cleared

lemma Inv.step (h : Inv s) (call : IngressCall H D) : Inv (s.step call) := by
  cases call with
  | announce elapsed announceHash announceData isNewDest =>
    exact h.announce elapsed announceHash announceData isNewDest
  | release elapsed => exact h.release elapsed

lemma Inv.releases (h : Inv s) (hactive : s.ic.burstActive = false) : Releases s := by
  intro elapsed helapsed hheld
  obtain ⟨entry, heldQueue, hqueue⟩ := List.exists_cons_of_ne_nil hheld
  have hcleared : s.ic.burstClearedAt.any (fun cleared =>
      s.now + elapsed - cleared < s.ic.cfg.burstHold + s.ic.cfg.burstPenalty) = false := by
    rw [any_eq_false]
    intro c hc
    obtain ⟨arrival, harrival, hle, hend⟩ := h.cleared c hc
    obtain ⟨-, hpenalty, -⟩ := helapsed.1 arrival harrival
    have hhold := hend hactive
    have hnow := h.arrived arrival harrival
    rw [decide_eq_false_iff_not]
    omega
  have hlast : s.ic.lastReleaseAt.any (fun last =>
      s.now + elapsed - last < s.ic.cfg.heldReleaseInterval) = false := by
    rw [any_eq_false]
    intro last hmem
    have hinterval := helapsed.2 last hmem
    rw [decide_eq_false_iff_not]
    omega
  simp [releaseHeldAnnounce, hqueue, hactive, hcleared, hlast]

omit [DecidableEq H] in
lemma exists_elapsed (s : IngressHistory H D) : ∃ elapsed, s.Elapsed (s.now + elapsed) := by
  refine ⟨s.lastArrival.getD 0 + s.ic.lastReleaseAt.getD 0 + s.ic.cfg.burstHold +
    s.ic.cfg.burstPenalty + s.ic.cfg.heldReleaseInterval, ?_, ?_⟩
  · intro arrival harrival
    rw [harrival, getD_some]
    refine ⟨?_, ?_, ?_⟩ <;> omega
  · intro last hlast
    rw [hlast, getD_some]
    omega

lemma not_releases (hactive : s.ic.burstActive) (hheld : s.ic.heldQueue ≠ []) : ¬ Releases s := by
  intro h
  obtain ⟨elapsed, helapsed⟩ := s.exists_elapsed
  have hhead := h elapsed helapsed hheld
  rw [release_of_burst hactive] at hhead
  exact hheld (List.head?_eq_none_iff.1 hhead.symm)

/-- **Held announces.**  In every history of calls queue and index agree, the queue is bounded and
its order is that of the releases.  At its end, a held announce is returned once the times have
elapsed without another announce, exactly if the burst is not active. -/
theorem releases_iff (cfg : IngressControlConfig) (now : ℕ) (calls : List (IngressCall H D)) :
    Run.Always step Queued (new cfg now) calls ∧
      (Releases (Run.exec step (new cfg now) calls) ↔
        (Run.exec step (new cfg now) calls).ic.heldQueue = [] ∨
          (Run.exec step (new cfg now) calls).ic.burstActive = false) := by
  have hinv : Run.Always step Inv (new cfg now) calls :=
    Run.always_of_step (fun _ call h => h.step call) (.init cfg now) calls
  refine ⟨hinv.mono fun _ h => h.toQueued, ?_⟩
  have hend := hinv.last
  constructor
  · intro h
    by_contra hnot
    rw [not_or, Bool.not_eq_false] at hnot
    exact not_releases hnot.2 hnot.1 h
  · rintro (hnil | hactive)
    · intro elapsed _ hheld
      exact absurd hnil hheld
    · exact hend.releases hactive

/-! ### A burst that does not end -/

def burst : List (IngressCall ℕ ℕ) :=
  (List.range 8).map fun i => .announce (10 ^ 6) i i true

lemma released_of_burst (hactive : s.ic.burstActive) (waits : List ℕ) :
    (Run.exec step s (waits.map .release)).released = s.released ∧
      (Run.exec step s (waits.map .release)).ic = s.ic := by
  induction waits generalizing s with
  | nil => exact ⟨rfl, rfl⟩
  | cons elapsed waits ih =>
    have hstep : s.step (.release elapsed) = { s with now := s.now + elapsed } := by
      simp [step, release_of_burst hactive]
    rw [List.map_cons, Run.exec_cons, hstep]
    exact ih hactive

/-- With the default settings, the announce that the burst made wait is held for ever, however often
and after however long a time it is asked for. -/
theorem burst_never_released :
    (Run.exec step (new newIngressControlConfig 0) burst).ic.heldQueue = [⟨7, 7⟩] ∧
      ∀ waits : List ℕ,
        (Run.exec step (new newIngressControlConfig 0) (burst ++ waits.map .release)).released =
          [] := by
  refine ⟨by decide +kernel, ?_⟩
  intro waits
  rw [Run.exec_append]
  have hactive : (Run.exec step (new newIngressControlConfig 0) burst).ic.burstActive = true := by
    decide +kernel
  rw [(released_of_burst hactive waits).1]
  decide +kernel

end IngressHistory

end Reticulum

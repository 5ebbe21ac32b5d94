import Reticulum.Transport.Forwarding

/-!
# The path table on disk

A node writes its path table to a file and reads it back after a restart
(`pkg/transport/path_persist.go`).  A record whose interface is not there yet waits among the
**pending** entries until the interface is registered.

Two answers of the node depend on what the file does not have: **when the path expires**, which is
seven days after its last update for one that was read back, and **which announces are too old**,
for the random blobs are gone.  `answers_alike_iff` says which paths give the same answers without
this: only one that was itself read from the file and has not been heard of since.  Whole paths can
be lost besides: `routing_restored_iff`.  All times are whole seconds.
-/

namespace Reticulum

open Packet.Constants List Option AList Table

/-! ## Paths with the time of their last update -/

def pathRequestTTL : ℕ := 300

def pathfinderE : ℕ := 60 * 60 * 24 * 7

inductive PathState where
  | unknown
  | unresponsive
  | responsive
deriving DecidableEq

/-- A path as the path table has it.  `appendRandomBlob` keeps no more than `maxRandomBlobs` of the
blobs. -/
structure PathRow extends Path where
  lastUpdated : ℕ
  blobs_le : randomBlobs.length ≤ maxRandomBlobs

/-- Whether a path has expired, where times are counted in units of which `second` make a second. -/
def pathExpiredIn (second : ℕ) (path : PathRow) (now : ℕ) : Bool :=
  match path.expires with
  | some expires => decide (expires ≤ now)
  | none => decide (pathfinderE * second < now - path.lastUpdated)

lemma pathExpiredIn_of_some {path : PathRow} {expires : ℕ} (h : path.expires = some expires)
    (second now : ℕ) : pathExpiredIn second path now ↔ expires ≤ now := by
  simp [pathExpiredIn, h]

def pathExpired (path : PathRow) (now : ℕ) : Bool := pathExpiredIn 1 path now

lemma pathExpired_of_some {path : PathRow} {expires : ℕ} (h : path.expires = some expires)
    (now : ℕ) : pathExpired path now ↔ expires ≤ now :=
  pathExpiredIn_of_some h 1 now

lemma pathExpired_of_none {path : PathRow} (h : path.expires = none) (now : ℕ) :
    pathExpired path now ↔ path.lastUpdated + pathfinderE < now := by
  simp only [pathExpired, pathExpiredIn, h, decide_eq_true_eq]
  omega

/-! ## What a restart forgets of a path -/

def PathRow.restored (row : PathRow) : PathRow :=
  { row with randomBlobs := [], expires := none, blobs_le := Nat.zero_le _ }

/-- Nothing that a restart forgets of the path matters: the announces that made it are all of time
zero, it expires when a path without a time of its own would, and it either responds or cannot be
replaced by one of more hops. -/
def PathRow.Forgettable (row : PathRow) (unresponsive : Bool) : Prop :=
  (∀ blob ∈ row.randomBlobs, announceEmitted blob = 0) ∧
    (row.expires = none ∧ unresponsive = false ∨
      row.hopCount = 255 ∧
        row.expires.getD (row.lastUpdated + pathfinderE + 1) = row.lastUpdated + pathfinderE + 1)

/-- The path gives the same answers after a restart: whether it has expired, at every later time,
and whether a later announce replaces it. -/
def PathRow.AnswersAlike (row : PathRow) (unresponsive : Bool) (now : ℕ) : Prop :=
  (∀ later, now ≤ later → pathExpired row.restored later = pathExpired row later) ∧
    ∀ input : AnnouncePathInput, now ≤ input.now → input.randomBlob.length = 10 →
      shouldUpdateAnnouncePath (some row.restored.toPath) input false =
        shouldUpdateAnnouncePath (some row.toPath) input unresponsive

section Answers

variable {row : PathRow} {unresponsive : Bool} {now : ℕ} {input : AnnouncePathInput} {blob : Bytes}

lemma announceEmitted_take (h : 10 ≤ blob.length) :
    announceEmitted (blob.take 10) = announceEmitted blob := by
  have hlen : ¬ (blob.take 10).length < 10 := by
    rw [length_take]
    omega
  rw [announceEmitted, announceEmitted, if_neg hlen, if_neg (not_lt.2 h), drop_take, take_take]
  rfl

lemma length_of_emitted (h : announceEmitted blob ≠ 0) : 10 ≤ blob.length := by
  by_contra hlt
  exact h (by rw [announceEmitted, if_pos (Nat.lt_of_not_le hlt)])

lemma exists_unknown_blob (row : PathRow) :
    ∃ blob : Bytes, blob.length = 10 ∧ announceEmitted blob = 0 ∧ blob ∉ row.randomBlobs := by
  let blobs : List Bytes := (range 65).map fun i => .ofNat i :: replicate 9 0
  by_contra hall
  push Not at hall
  have hsub : blobs ⊆ row.randomBlobs := by
    intro blob hblob
    obtain ⟨i, -, rfl⟩ := mem_map.1 hblob
    exact hall _ rfl rfl
  have hnodup : blobs.Nodup := by
    refine .map_on ?_ nodup_range
    intro i hi j hj hij
    have hi' := mem_range.1 hi
    have hj' := mem_range.1 hj
    have heq := congrArg UInt8.toNat (cons.inj hij).1
    simpa [Nat.mod_eq_of_lt (show i < 256 by omega), Nat.mod_eq_of_lt (show j < 256 by omega)]
      using heq
  have hle := (subperm_of_subset hnodup hsub).length_le
  have hbound := row.blobs_le
  simp only [blobs, length_map, length_range, maxRandomBlobs] at hle hbound
  omega

lemma shouldUpdate_of_expired {path : Path} {pathUnresponsive : Bool}
    (hknown : input.destinationKnown) (hexpired : ¬ path.LiveAt input.now)
    (hops : path.hopCount < input.announceHops) :
    shouldUpdateAnnouncePath (some path) input pathUnresponsive ↔
      input.randomBlob ∉ path.randomBlobs := by
  simp [shouldUpdateAnnouncePath, hknown, hops, hexpired, randomBlobKnown]

lemma live_of_none (hnone : row.expires = none) (now : ℕ) : row.toPath.LiveAt now := by
  intro expires hexpires
  rw [hnone] at hexpires
  cases hexpires

lemma restored_decision (row : PathRow) (hknown : input.destinationKnown)
    (hops : row.hopCount < input.announceHops) :
    shouldUpdateAnnouncePath (some row.restored.toPath) input false ↔
      0 < announceEmitted input.randomBlob := by
  rw [shouldUpdate_of_lt row.restored.toPath hknown (live_of_none rfl _) hops]
  simp [PathRow.restored]

lemma timebase_eq_zero {blobs : List Bytes} (h : ∀ blob ∈ blobs, announceEmitted blob = 0) :
    timebaseFromRandomBlobs blobs = 0 :=
  le_antisymm (timebase_le_iff.2 fun blob hblob => (h blob hblob).le) UInt32.zero_le

lemma pathEmittedLoop_eq_zero {blobs : List Bytes} (h : ∀ blob ∈ blobs, announceEmitted blob = 0) :
    pathEmittedLoop 0 0 blobs = 0 := by
  cases blobs with
  | nil => rfl
  | cons blob blobs => simp [pathEmittedLoop, h blob mem_cons_self]

def probe (announceHops : UInt8) (randomBlob : Bytes) (now : ℕ) : AnnouncePathInput :=
  ⟨true, announceHops, randomBlob, now, 0, 0, false⟩

section

variable (h : row.AnswersAlike unresponsive now)
include h

lemma emitted_eq_zero : ∀ blob ∈ row.randomBlobs, announceEmitted blob = 0 := by
  intro blob hblob
  by_contra hne
  have hlen := length_of_emitted hne
  have htake := announceEmitted_take hlen
  have hzero : 0 ≤ row.hopCount := UInt8.zero_le
  have hsame := h.2 (probe 0 (blob.take 10) now) le_rfl (by simpa [probe] using hlen)
  have hold : ¬ shouldUpdateAnnouncePath (some row.toPath) (probe 0 (blob.take 10) now)
      unresponsive := by
    rw [shouldUpdate_of_le row.toPath rfl hzero]
    simp only [probe, htake, Bool.false_eq_true, false_and, or_false, not_and, not_lt]
    intro _
    exact timebase_le_iff.1 le_rfl blob hblob
  have hnew : shouldUpdateAnnouncePath (some row.restored.toPath) (probe 0 (blob.take 10) now)
      false := by
    rw [shouldUpdate_of_le row.restored.toPath rfl hzero]
    refine .inl ⟨not_mem_nil, ?_⟩
    show 0 < announceEmitted (blob.take 10)
    rw [htake]
    exact UInt32.pos_iff_ne_zero.2 hne
  exact hold (hsame ▸ hnew)

lemma expires_eq (hnow : now ≤ row.lastUpdated + pathRequestTTL) :
    row.expires.getD (row.lastUpdated + pathfinderE + 1) = row.lastUpdated + pathfinderE + 1 := by
  cases hexp : row.expires with
  | none => rfl
  | some expires =>
    have hlate : now ≤ row.lastUpdated + pathfinderE :=
      hnow.trans (Nat.add_le_add_left (by decide) _)
    have hlast := h.1 (row.lastUpdated + pathfinderE) hlate
    have hnext := h.1 (row.lastUpdated + pathfinderE + 1) (hlate.trans (Nat.le_succ _))
    rw [Bool.eq_iff_iff, pathExpired_of_none rfl, pathExpired_of_some hexp] at hlast hnext
    change row.lastUpdated + pathfinderE < _ ↔ _ at hlast hnext
    show expires = _
    omega

/-- An announce of time zero on more hops is not taken by the path that was read back, so the path
as it was did not take it either. -/
lemma refuses_unknown {later : ℕ} (hlater : now ≤ later) (hlen : blob.length = 10)
    (hemitted : announceEmitted blob = 0) (hmore : row.hopCount < 255) :
    ¬ shouldUpdateAnnouncePath (some row.toPath) (probe 255 blob later) unresponsive := by
  intro htaken
  rw [← h.2 (probe 255 blob later) hlater hlen, restored_decision row rfl hmore] at htaken
  exact absurd hemitted htaken.ne'

lemma expires_none (hnow : now ≤ row.lastUpdated + pathRequestTTL) (hmore : row.hopCount < 255) :
    row.expires = none := by
  cases hexp : row.expires with
  | none => rfl
  | some expires =>
    exfalso
    have hexpires := expires_eq h hnow
    rw [hexp, getD_some] at hexpires
    have hlater : now ≤ expires := by
      have : pathRequestTTL ≤ pathfinderE := by decide
      omega
    obtain ⟨blob, hlen, hemitted, hblob⟩ := exists_unknown_blob row
    refine refuses_unknown h hlater hlen hemitted hmore ?_
    exact (shouldUpdate_of_expired rfl (by simp [Path.LiveAt, hexp, probe]) hmore).2 hblob

lemma responsive_of_alike (hnone : row.expires = none)
    (hmore : row.hopCount < 255) : unresponsive = false := by
  by_contra hun
  obtain ⟨blob, hlen, hemitted, -⟩ := exists_unknown_blob row
  refine refuses_unknown h le_rfl hlen hemitted hmore ?_
  rw [shouldUpdate_of_lt row.toPath rfl (live_of_none hnone _) hmore]
  refine .inr ⟨Bool.eq_true_of_not_eq_false hun, ?_⟩
  show pathEmittedLoop (announceEmitted blob) 0 row.randomBlobs = announceEmitted blob
  rw [hemitted]
  exact pathEmittedLoop_eq_zero (emitted_eq_zero h)

end

section

variable (h : row.Forgettable unresponsive)
include h

lemma PathRow.Forgettable.expires_eq :
    row.expires.getD (row.lastUpdated + pathfinderE + 1) = row.lastUpdated + pathfinderE + 1 := by
  rcases h.2 with ⟨hnone, -⟩ | ⟨-, hexpires⟩
  · rw [hnone, getD_none]
  · exact hexpires

lemma PathRow.Forgettable.expired (later : ℕ) :
    pathExpired row.restored later = pathExpired row later := by
  have hexpires := h.expires_eq
  rw [Bool.eq_iff_iff, pathExpired_of_none rfl]
  cases hexp : row.expires with
  | none => exact (pathExpired_of_none hexp later).symm
  | some expires =>
    rw [hexp, getD_some] at hexpires
    rw [pathExpired_of_some hexp, hexpires]
    exact .rfl

lemma PathRow.Forgettable.decision_of_le
    (hknown : input.destinationKnown) (hops : input.announceHops ≤ row.hopCount) :
    shouldUpdateAnnouncePath (some row.restored.toPath) input false ↔
      shouldUpdateAnnouncePath (some row.toPath) input unresponsive := by
  rw [shouldUpdate_of_le row.restored.toPath hknown hops,
    shouldUpdate_of_le row.toPath hknown hops, timebase_eq_zero h.1]
  refine or_congr (and_congr_left ?_) .rfl
  intro hpos
  refine ⟨fun _ hmem => ?_, fun _ => not_mem_nil⟩
  exact absurd (h.1 _ hmem) hpos.ne'

lemma PathRow.Forgettable.decision_of_lt
    (hknown : input.destinationKnown) (hops : row.hopCount < input.announceHops) :
    shouldUpdateAnnouncePath (some row.restored.toPath) input false ↔
      shouldUpdateAnnouncePath (some row.toPath) input unresponsive := by
  rcases h.2 with ⟨hnone, hun⟩ | ⟨hhops, -⟩
  · rw [restored_decision row hknown hops,
      shouldUpdate_of_lt row.toPath hknown (live_of_none hnone _) hops, hun]
    refine ⟨fun hpos => .inl ⟨fun blob hblob => ?_, hpos⟩, ?_⟩
    · rw [h.1 blob hblob]
      exact hpos
    · rintro (⟨-, hpos⟩ | ⟨hfalse, -⟩)
      · exact hpos
      · cases hfalse
  · rw [hhops, UInt8.lt_iff_toNat_lt] at hops
    have hlt := input.announceHops.toNat_lt
    change 255 < _ at hops
    omega

end

/-- **Which paths give the same answers after a restart.** -/
lemma answers_alike_iff (hnow : now ≤ row.lastUpdated + pathRequestTTL) :
    row.AnswersAlike unresponsive now ↔ row.Forgettable unresponsive := by
  constructor
  · intro h
    refine ⟨emitted_eq_zero h, ?_⟩
    by_cases hhops : row.hopCount = 255
    · exact .inr ⟨hhops, expires_eq h hnow⟩
    have hmore : row.hopCount < 255 := by
      have hlt := row.hopCount.toNat_lt
      have hne : row.hopCount.toNat ≠ 255 := fun he => hhops (UInt8.toNat_inj.1 he)
      show row.hopCount.toNat < 255
      omega
    have hnone := expires_none h hnow hmore
    exact .inl ⟨hnone, responsive_of_alike h hnone hmore⟩
  · intro h
    refine ⟨fun later _ => h.expired later, ?_⟩
    intro input _ _
    cases hknown : input.destinationKnown with
    | false => simp [shouldUpdateAnnouncePath, hknown]
    | true =>
      rw [Bool.eq_iff_iff]
      by_cases hops : input.announceHops ≤ row.hopCount
      · exact h.decision_of_le hknown hops
      · exact h.decision_of_lt hknown (UInt8.not_le.1 hops)

end Answers

/-! ## The file -/

/-- What the decoder of the file format returns for a value of any type.  The numbers are whole. -/
inductive MsgValue where
  | nil
  | bytes (b : Bytes)
  | float (x : ℤ)
  | int (n : ℤ)
  | array (vs : List MsgValue)

/-- A path as it is read from the file.  A pending entry has the same fields. -/
structure PathRecord where
  destHash : Bytes
  nextHop : Bytes
  hops : UInt8
  interfaceID : Bytes
  lastUpdated : ℕ
deriving DecidableEq

namespace PathRecord

def key (rec : PathRecord) : Bytes := pathMapKey rec.destHash

def path (rec : PathRecord) (iface : ℕ) : PathRow where
  nextHop := rec.nextHop
  iface := some iface
  hopCount := rec.hops
  randomBlobs := []
  expires := none
  lastUpdated := rec.lastUpdated
  blobs_le := Nat.zero_le _

end PathRecord

def decodeHops : MsgValue → Option UInt8
  | .int n => if 0 ≤ n ∧ n ≤ 255 then some (.ofNat n.toNat) else none
  | .float n => if 0 ≤ n ∧ n ≤ 255 then some (.ofNat n.toNat) else none
  | _ => none

inductive DecodedEntry where
  | skipped
  | expired
  | record (rec : PathRecord)
deriving DecidableEq

def decodePathTableEntry (now : ℕ) : MsgValue → DecodedEntry
  | .array (.bytes destHash :: .float timestamp :: .bytes receivedFrom :: hops :: .float expires ::
      _ :: ifaceKey :: _ :: _) =>
    if destHash.length ≠ truncatedHashLength then .skipped
    else
      match decodeHops hops with
      | none => .skipped
      | some hops =>
        if 0 < expires ∧ expires < now then .expired
        else
          match ifaceKey with
          | .bytes ifaceKey =>
            let lastUpdated := if timestamp ≤ 0 then now else timestamp.toNat
            if pathRequestTTL < now - lastUpdated then .expired
            else .record ⟨destHash, receivedFrom, hops, ifaceKey, lastUpdated⟩
          | _ => .skipped
  | _ => .skipped

def DecodedEntry.record? : DecodedEntry → Option PathRecord
  | .record rec => some rec
  | _ => none

def decodePathTableEntries (entries : List MsgValue) (now : ℕ) : List PathRecord × ℕ :=
  (entries.filterMap fun raw => (decodePathTableEntry now raw).record?,
    entries.countP fun raw => decodePathTableEntry now raw = .skipped)

/-! ## The node -/

/-- What the node has around the table: SHA-256, the names of the interfaces, the limit of the table
(`0` is none), and the order in which the map of paths is visited. -/
structure PathEnv where
  sha : Sha256
  getName : ℕ → Bytes
  maxInMemoryPaths : ℕ
  rank : Bytes → ℕ

structure PathNode where
  interfaces : Map Bytes ℕ
  paths : Map Bytes PathRow
  pathStates : Map Bytes PathState
  pendingPathEntries : List PathRecord

def interfacePersistKey (env : PathEnv) (name : Bytes) : Bytes :=
  (env.sha.sum name).take truncatedHashLength

namespace PathNode

variable {rec : PathRecord} {iface : ℕ} {row : PathRow}

def empty : PathNode := ⟨∅, ∅, ∅, []⟩

def unresponsive (t : PathNode) (key : Bytes) : Bool :=
  decide (t.pathStates.lookup key = some .unresponsive)

/-! ### Saving -/

section

variable (env : PathEnv) (t : PathNode)

def pathEntry (now : ℕ) (key : Bytes) (row : PathRow) (iface : ℕ) : MsgValue :=
  .array [.bytes (key.take truncatedHashLength), .float row.lastUpdated, .bytes row.nextHop,
    .int row.hopCount.toNat, .float (now + 7 * 24 * 3600), .array [],
    .bytes (interfacePersistKey env (env.getName iface)), .bytes []]

def savedEntry (now : ℕ) (s : Sigma fun _ : Bytes => PathRow) : Option MsgValue :=
  match s.2.iface with
  | none => none
  | some iface =>
    if t.interfaces.lookup (env.getName iface) = some iface then
      some (pathEntry env now s.1 s.2 iface)
    else none

def savePathTable (now : ℕ) : List MsgValue :=
  t.paths.entries.filterMap (savedEntry env t now)

/-! ### Loading -/

def findInterfaceForPersistKey (key : Bytes) : Option ℕ :=
  if key = [] then none
  else (t.interfaces.entries.find? fun s => key = interfacePersistKey env s.1).map Sigma.snd

/-- A record becomes a path on the interface that is chosen for it, or waits. -/
def settle (choose : PathRecord → Option ℕ) (t : PathNode) (rec : PathRecord) : PathNode :=
  match choose rec with
  | none => { t with pendingPathEntries := t.pendingPathEntries ++ [rec] }
  | some iface =>
    { t with
      paths := t.paths.insert rec.key (rec.path iface)
      pathStates := t.pathStates.insert rec.key .unknown }

def evictPathsIfNeededUnlocked : PathNode :=
  let keys := surplus env.maxInMemoryPaths 64 PathRow.lastUpdated env.rank t.paths
  { t with
    paths := eraseAll t.paths keys
    pathStates := eraseAll t.pathStates keys }

def loadPathTableFromDisk (file : List MsgValue) (now : ℕ) : PathNode :=
  evictPathsIfNeededUnlocked env ((decodePathTableEntries file now).1.foldl
    (settle fun rec => findInterfaceForPersistKey env t rec.interfaceID) t)

def activatePendingPathsForInterface (name : Bytes) (iface : ℕ) : PathNode :=
  if t.pendingPathEntries = [] then t
  else
    evictPathsIfNeededUnlocked env (t.pendingPathEntries.foldl
      (settle fun rec =>
        if rec.interfaceID = interfacePersistKey env name then some iface else none)
      { t with pendingPathEntries := [] })

def registerInterface (r : Bytes × ℕ) : PathNode :=
  if (t.interfaces.lookup r.1).isSome then t
  else
    activatePendingPathsForInterface env { t with interfaces := t.interfaces.insert r.1 r.2 } r.1
      r.2

/-- The node after a restart: some interfaces are registered before the file is read, the others
after. -/
def restart (file : List MsgValue) (now : ℕ) (before after : List (Bytes × ℕ)) : PathNode :=
  after.foldl (registerInterface env)
    (loadPathTableFromDisk env (before.foldl (registerInterface env) empty) file now)

/-! ## What is written is read back -/

def recordOf (key : Bytes) (row : PathRow) (iface : ℕ) : PathRecord :=
  ⟨key.take truncatedHashLength, row.nextHop, row.hopCount,
    interfacePersistKey env (env.getName iface), row.lastUpdated⟩

end

structure Saved (env : PathEnv) (t : PathNode) (key : Bytes) (row : PathRow) (iface : ℕ) :
    Prop where
  lookup : t.paths.lookup key = some row
  uses : row.iface = some iface
  registered : t.interfaces.lookup (env.getName iface) = some iface

/-- The table is saved at one time and loaded at another, when no path is too old for it. -/
structure SavedRecently (t : PathNode) (saved now : ℕ) : Prop where
  saved_le : saved ≤ now
  updated : ∀ key row, t.paths.lookup key = some row →
    0 < row.lastUpdated ∧ row.lastUpdated ≤ saved ∧ now ≤ row.lastUpdated + pathRequestTTL

lemma decodeHops_toNat (hops : UInt8) : decodeHops (.int hops.toNat) = some hops := by
  have hlt := hops.toNat_lt
  rw [decodeHops, if_pos ⟨by omega, by omega⟩, Int.toNat_natCast, UInt8.ofNat_toNat]

section RoundTrip

variable {env : PathEnv} {t : PathNode} {saved now : ℕ} {key : Bytes} {row : PathRow} {iface : ℕ}

lemma decode_pathEntry (env : PathEnv) (key : Bytes) (iface : ℕ) (hsaved : saved ≤ now)
    (hpos : 0 < row.lastUpdated) (hold : row.lastUpdated ≤ saved)
    (hnow : now ≤ row.lastUpdated + pathRequestTTL) :
    decodePathTableEntry now (pathEntry env saved key row iface) =
      if key.length < truncatedHashLength then .skipped
      else .record (recordOf env key row iface) := by
  have hexpires : ¬ ((0 : ℤ) < saved + 7 * 24 * 3600 ∧ (saved + 7 * 24 * 3600 : ℤ) < now) := by
    have : pathRequestTTL = 300 := rfl
    omega
  have htime : ¬ (row.lastUpdated : ℤ) ≤ 0 := by omega
  have hage : ¬ pathRequestTTL < now - row.lastUpdated := by omega
  simp only [pathEntry, decodePathTableEntry, decodeHops_toNat, if_neg hexpires, if_neg htime,
    Int.toNat_natCast, if_neg hage, length_take]
  by_cases hlen : key.length < truncatedHashLength
  · rw [if_pos hlen, if_pos (by omega)]
  · rw [if_neg hlen, if_neg (by omega)]
    rfl

lemma savedEntry_eq_some {s : Sigma fun _ : Bytes => PathRow} {raw : MsgValue} :
    savedEntry env t saved s = some raw ↔
      ∃ iface, s.2.iface = some iface ∧ t.interfaces.lookup (env.getName iface) = some iface ∧
        raw = pathEntry env saved s.1 s.2 iface := by
  unfold savedEntry
  cases s.2.iface with
  | none => simp
  | some iface =>
    by_cases hreg : t.interfaces.lookup (env.getName iface) = some iface
    · simp [eq_comm]
    · simp [hreg]

/-- **The records of a table that has been saved** are those of the paths on registered
interfaces. -/
lemma mem_records_iff (h : SavedRecently t saved now) :
    rec ∈ (decodePathTableEntries (savePathTable env t saved) now).1 ↔
      ∃ key row iface, Saved env t key row iface ∧ truncatedHashLength ≤ key.length ∧
        rec = recordOf env key row iface := by
  simp only [decodePathTableEntries, savePathTable, mem_filterMap, savedEntry_eq_some]
  constructor
  · rintro ⟨raw, ⟨s, hs, iface, hiface, hreg, rfl⟩, hrec⟩
    have hlookup := lookup_eq_some_iff.2 hs
    obtain ⟨hpos, hold, hnow⟩ := h.updated _ _ hlookup
    rw [decode_pathEntry env s.1 iface h.saved_le hpos hold hnow] at hrec
    by_cases hlen : s.1.length < truncatedHashLength
    · rw [if_pos hlen] at hrec
      cases hrec
    · rw [if_neg hlen] at hrec
      exact ⟨s.1, s.2, iface, ⟨hlookup, hiface, hreg⟩, Nat.le_of_not_lt hlen, (some.inj hrec).symm⟩
  · rintro ⟨key, row, iface, ⟨hlookup, hiface, hreg⟩, hlen, rfl⟩
    obtain ⟨hpos, hold, hnow⟩ := h.updated _ _ hlookup
    refine ⟨_, ⟨⟨key, row⟩, lookup_eq_some_iff.1 hlookup, iface, hiface, hreg, rfl⟩, ?_⟩
    rw [decode_pathEntry env key iface h.saved_le hpos hold hnow, if_neg (not_lt.2 hlen)]
    rfl

lemma length_records_le (env : PathEnv) (t : PathNode) (saved now : ℕ) :
    (decodePathTableEntries (savePathTable env t saved) now).1.length ≤ t.paths.entries.length :=
  (length_filterMap_le _ _).trans (length_filterMap_le _ _)

end RoundTrip

/-! ## Records become paths -/

section Settle

variable {choose : PathRecord → Option ℕ} {t : PathNode} {recs : List PathRecord}

section

variable (choose : PathRecord → Option ℕ) (t : PathNode)

lemma settle_cases (rec : PathRecord) : (choose rec = none ∧
        settle choose t rec = { t with pendingPathEntries := t.pendingPathEntries ++ [rec] }) ∨
      ∃ iface, choose rec = some iface ∧
        settle choose t rec =
          { t with
            paths := t.paths.insert rec.key (rec.path iface)
            pathStates := t.pathStates.insert rec.key .unknown } := by
  unfold settle
  cases choose rec with
  | none => exact .inl ⟨rfl, rfl⟩
  | some iface => exact .inr ⟨iface, rfl, rfl⟩

lemma settleAll_interfaces
    (recs : List PathRecord) : (recs.foldl (settle choose) t).interfaces = t.interfaces := by
  induction recs generalizing t with
  | nil => rfl
  | cons rec recs ih =>
    rw [foldl_cons, ih]
    rcases settle_cases choose t rec with ⟨-, heq⟩ | ⟨iface, -, heq⟩ <;> rw [heq]

lemma settleAll_pending (recs : List PathRecord) :
    (recs.foldl (settle choose) t).pendingPathEntries =
      t.pendingPathEntries ++ recs.filter fun rec => (choose rec).isNone := by
  induction recs generalizing t with
  | nil => simp
  | cons rec recs ih =>
    rw [foldl_cons, ih]
    rcases settle_cases choose t rec with ⟨hnone, heq⟩ | ⟨iface, hsome, heq⟩
    · simp [heq, hnone]
    · simp [heq, hsome]

end

lemma settleAll_source {key : Bytes}
    (h : (recs.foldl (settle choose) t).paths.lookup key = some row) :
    t.paths.lookup key = some row ∨
      ∃ rec ∈ recs, ∃ iface, choose rec = some iface ∧ key = rec.key ∧ row = rec.path iface := by
  induction recs generalizing t with
  | nil => exact .inl h
  | cons rec recs ih =>
    rcases ih h with h | ⟨rec', hrec', hfrom⟩
    · rcases settle_cases choose t rec with ⟨-, heq⟩ | ⟨iface, hsome, heq⟩
      · rw [heq] at h
        exact .inl h
      · rw [heq] at h
        by_cases hkey : key = rec.key
        · rw [hkey, lookup_insert] at h
          exact .inr ⟨rec, mem_cons_self, iface, hsome, hkey, (some.inj h).symm⟩
        · rw [lookup_insert_ne hkey] at h
          exact .inl h
    · exact .inr ⟨rec', mem_cons_of_mem rec hrec', hfrom⟩

lemma settleAll_states (h : ∀ key, t.pathStates.lookup key ≠ some .unresponsive) :
    ∀ key, (recs.foldl (settle choose) t).pathStates.lookup key ≠ some .unresponsive := by
  induction recs generalizing t with
  | nil => exact h
  | cons rec recs ih =>
    apply ih
    intro key
    rcases settle_cases choose t rec with ⟨-, heq⟩ | ⟨iface, -, heq⟩
    · rw [heq]
      exact h key
    · rw [heq]
      show (t.pathStates.insert rec.key .unknown).lookup key ≠ _
      by_cases hkey : key = rec.key
      · rw [hkey, lookup_insert]
        intro hstate
        cases hstate
      · rw [lookup_insert_ne hkey]
        exact h key

lemma settleAll_frame {key : Bytes} (h : ∀ rec ∈ recs, (choose rec).isSome → rec.key ≠ key) :
    (recs.foldl (settle choose) t).paths.lookup key = t.paths.lookup key := by
  induction recs generalizing t with
  | nil => rfl
  | cons rec recs ih =>
    rw [foldl_cons, ih fun rec' hrec' => h rec' (mem_cons_of_mem rec hrec')]
    rcases settle_cases choose t rec with ⟨-, heq⟩ | ⟨iface, hsome, heq⟩
    · rw [heq]
    · have hne := h rec mem_cons_self (by rw [hsome, isSome_some])
      rw [heq]
      exact lookup_insert_ne hne.symm

lemma settleAll_placed (hmem : rec ∈ recs)
    (hchoose : choose rec = some iface) (hkey : ∀ rec' ∈ recs, rec'.key = rec.key → rec' = rec) :
    (recs.foldl (settle choose) t).paths.lookup rec.key = some (rec.path iface) := by
  induction recs generalizing t with
  | nil => cases hmem
  | cons rec' recs ih =>
    have hkey' : ∀ r ∈ recs, r.key = rec.key → r = rec :=
      fun r hr => hkey r (mem_cons_of_mem rec' hr)
    by_cases hlater : rec ∈ recs
    · exact ih hlater hkey'
    · have hfirst : rec' = rec := by
        rcases mem_cons.1 hmem with heq | hin
        · exact heq.symm
        · exact absurd hin hlater
      subst hfirst
      rw [foldl_cons, settleAll_frame]
      · rcases settle_cases choose t rec' with ⟨hnone, -⟩ | ⟨iface', hsome, heq⟩
        · rw [hnone] at hchoose
          cases hchoose
        · rw [hsome] at hchoose
          rw [heq, some.inj hchoose]
          exact lookup_insert _
      · intro r hr _ hrkey
        exact hlater (hkey' r hr hrkey ▸ hr)

lemma settleAll_count (choose : PathRecord → Option ℕ) (t : PathNode) (recs : List PathRecord) :
    (recs.foldl (settle choose) t).paths.entries.length +
        (recs.foldl (settle choose) t).pendingPathEntries.length ≤
      t.paths.entries.length + t.pendingPathEntries.length + recs.length := by
  induction recs generalizing t with
  | nil => rfl
  | cons rec recs ih =>
    have hstep : (settle choose t rec).paths.entries.length +
        (settle choose t rec).pendingPathEntries.length ≤
          t.paths.entries.length + t.pendingPathEntries.length + 1 := by
      rcases settle_cases choose t rec with ⟨-, heq⟩ | ⟨iface, -, heq⟩
      · rw [heq]
        simp only [length_append, length_singleton]
        omega
      · rw [heq]
        have := length_insert_le t.paths rec.key (rec.path iface)
        dsimp only
        omega
    have hrest := ih (settle choose t rec)
    rw [foldl_cons, length_cons]
    omega

end Settle

/-! ## The node while it is restarted -/

def Finds (env : PathEnv) (t : PathNode) (rec : PathRecord) (iface : ℕ) : Prop :=
  ∃ name, t.interfaces.lookup name = some iface ∧ rec.interfaceID = interfacePersistKey env name

/-- The paths of a node are records on their interfaces, and the pending entries are records without
one. -/
structure Sound (env : PathEnv) (recs : List PathRecord) (t : PathNode) : Prop where
  source : ∀ key row, t.paths.lookup key = some row →
    ∃ rec ∈ recs, ∃ iface, Finds env t rec iface ∧ key = rec.key ∧ row = rec.path iface
  states : ∀ key, t.pathStates.lookup key ≠ some .unresponsive
  pending : ∀ rec ∈ t.pendingPathEntries, rec ∈ recs ∧ ∀ iface, ¬ Finds env t rec iface

/-- What holds of a node at every point of a restart from a list of records. -/
structure Restarting (env : PathEnv) (recs : List PathRecord) (t : PathNode) : Prop
    extends Sound env recs t where
  limit : env.maxInMemoryPaths = 0 ∨ t.paths.entries.length ≤ env.maxInMemoryPaths

/-- No record is lost either. -/
structure Complete (env : PathEnv) (recs : List PathRecord) (t : PathNode) : Prop where
  placed : ∀ rec ∈ recs, rec ∈ t.pendingPathEntries ∨
    ∃ iface, Finds env t rec iface ∧ t.paths.lookup rec.key = some (rec.path iface)
  count : t.paths.entries.length + t.pendingPathEntries.length ≤ recs.length

/-- There is room for all records, and no two are for one destination. -/
structure Fits (env : PathEnv) (recs : List PathRecord) : Prop where
  keys : ∀ a ∈ recs, ∀ b ∈ recs, a.key = b.key → a = b
  limit : env.maxInMemoryPaths = 0 ∨ recs.length ≤ env.maxInMemoryPaths

section Restart

variable {env : PathEnv} {t : PathNode} {recs : List PathRecord} {name : Bytes}

lemma interfacePersistKey_ne_nil (env : PathEnv) (name : Bytes) :
    interfacePersistKey env name ≠ [] := by
  intro hnil
  have hlen := congrArg length hnil
  rw [interfacePersistKey, length_take, env.sha.length_sum] at hlen
  cases hlen

lemma find_spec (env : PathEnv) (t : PathNode) (rec : PathRecord) :
    (∀ iface, findInterfaceForPersistKey env t rec.interfaceID = some iface →
      Finds env t rec iface) ∧
    (findInterfaceForPersistKey env t rec.interfaceID = none →
      ∀ iface, ¬ Finds env t rec iface) := by
  unfold findInterfaceForPersistKey
  by_cases hnil : rec.interfaceID = []
  · rw [if_pos hnil]
    refine ⟨by simp, ?_⟩
    rintro - iface ⟨name, -, hkey⟩
    exact interfacePersistKey_ne_nil env name (hkey ▸ hnil)
  · simp only [if_neg hnil, map_eq_some_iff, map_eq_none_iff]
    constructor
    · rintro iface ⟨s, hfind, rfl⟩
      exact ⟨s.1, lookup_eq_some_iff.2 (mem_of_find?_eq_some hfind),
        by simpa using find?_some hfind⟩
    · rintro hfind iface ⟨name, hname, hkey⟩
      have hnot := find?_eq_none.1 hfind ⟨name, iface⟩ (lookup_eq_some_iff.1 hname)
      exact hnot (decide_eq_true hkey)

lemma Sound.evict (h : Sound env recs t) :
    Restarting env recs (evictPathsIfNeededUnlocked env t) where
  source := by
    intro key row hlookup
    change (eraseAll t.paths _).lookup key = some row at hlookup
    rw [lookup_eraseAll] at hlookup
    split at hlookup
    · cases hlookup
    · exact h.source key row hlookup
  states := by
    intro key hstate
    change (eraseAll t.pathStates _).lookup key = some .unresponsive at hstate
    rw [lookup_eraseAll] at hstate
    split at hstate
    · cases hstate
    · exact h.states key hstate
  pending := h.pending
  limit := by
    by_cases hlimit : env.maxInMemoryPaths = 0
    · exact .inl hlimit
    · exact .inr (length_cut hlimit)

lemma evict_of_le (h : env.maxInMemoryPaths = 0 ∨ t.paths.entries.length ≤ env.maxInMemoryPaths) :
    evictPathsIfNeededUnlocked env t = t := by
  unfold evictPathsIfNeededUnlocked
  rw [surplus_of_le h]
  rfl

lemma register_of_no_pending (env : PathEnv) (h : t.pendingPathEntries = []) (r : Bytes × ℕ) :
    registerInterface env t r =
      { t with interfaces := (registerInterface env t r).interfaces } := by
  unfold registerInterface
  split
  · rfl
  · rw [activatePendingPathsForInterface, if_pos h]

lemma registerAll_of_no_pending (env : PathEnv) (h : t.pendingPathEntries = [])
    (rs : List (Bytes × ℕ)) :
    rs.foldl (registerInterface env) t =
      { t with interfaces := (rs.foldl (registerInterface env) t).interfaces } := by
  induction rs generalizing t with
  | nil => rfl
  | cons r rs ih =>
    rw [foldl_cons, register_of_no_pending env h r]
    exact ih h

lemma interfaces_activate (env : PathEnv) (t : PathNode) (name : Bytes) (iface : ℕ) :
    (activatePendingPathsForInterface env t name iface).interfaces = t.interfaces := by
  unfold activatePendingPathsForInterface
  split
  · rfl
  · exact settleAll_interfaces _ _ _

lemma interfaces_register (env : PathEnv) (t : PathNode) (r : Bytes × ℕ) :
    (registerInterface env t r).interfaces =
      if (t.interfaces.lookup r.1).isSome then t.interfaces else t.interfaces.insert r.1 r.2 := by
  unfold registerInterface
  split
  · rfl
  · exact interfaces_activate env _ r.1 r.2

section Settled

variable {choose : PathRecord → Option ℕ} {settled : List PathRecord}
variable (hsettled : ∀ rec ∈ settled, rec ∈ recs)
  (hsome : ∀ rec ∈ settled, ∀ iface, choose rec = some iface → Finds env t rec iface)
include hsettled hsome

lemma Sound.settleAll (h : Sound env recs t) (hpending : t.pendingPathEntries = [])
    (hnone : ∀ rec ∈ settled, choose rec = none → ∀ iface, ¬ Finds env t rec iface) :
    Restarting env recs (evictPathsIfNeededUnlocked env (settled.foldl (settle choose) t)) := by
  have hfaces := settleAll_interfaces choose t settled
  refine Sound.evict ⟨?_, settleAll_states h.states, ?_⟩
  · simp only [Finds, hfaces]
    intro key row hlookup
    rcases settleAll_source hlookup with hold | ⟨rec, hrec, iface, hchoose, heq⟩
    · exact h.source key row hold
    · exact ⟨rec, hsettled rec hrec, iface, hsome rec hrec iface hchoose, heq⟩
  · simp only [Finds, hfaces]
    intro rec hrec
    rw [settleAll_pending, hpending, nil_append, mem_filter] at hrec
    exact ⟨hsettled rec hrec.1, hnone rec hrec.1 (isNone_iff_eq_none.1 hrec.2)⟩

lemma Complete.settleAll
    (hplaced : ∀ rec ∈ recs, rec ∈ settled ∨
      ∃ iface, Finds env t rec iface ∧ t.paths.lookup rec.key = some (rec.path iface))
    (hcount : t.paths.entries.length + settled.length ≤ recs.length)
    (hpending : t.pendingPathEntries = []) (hfits : Fits env recs) :
    Complete env recs (evictPathsIfNeededUnlocked env (settled.foldl (settle choose) t)) := by
  have hfaces := settleAll_interfaces choose t settled
  have hall := settleAll_count choose t settled
  rw [hpending, length_nil] at hall
  rw [evict_of_le (hfits.limit.imp_right fun hle => by omega)]
  refine ⟨fun rec hrec => ?_, by omega⟩
  simp only [Finds, hfaces]
  by_cases hmem : rec ∈ settled
  · cases hchoose : choose rec with
    | none =>
      left
      rw [settleAll_pending]
      exact mem_append_right _ (mem_filter.2 ⟨hmem, isNone_iff_eq_none.2 hchoose⟩)
    | some iface =>
      exact .inr ⟨iface, hsome rec hmem iface hchoose,
        settleAll_placed hmem hchoose fun rec' hrec' =>
          hfits.keys rec' (hsettled rec' hrec') rec hrec⟩
  · obtain ⟨iface, hfinds, hlookup⟩ := (hplaced rec hrec).resolve_left hmem
    refine .inr ⟨iface, hfinds, ?_⟩
    rw [settleAll_frame]
    · exact hlookup
    · intro rec' hrec' _ hkey
      exact hmem (hfits.keys rec' (hsettled rec' hrec') rec hrec hkey ▸ hrec')

end Settled

section Load

variable {file : List MsgValue} {now : ℕ} (hrecs : (decodePathTableEntries file now).1 = recs)
  (hpending : t.pendingPathEntries = []) (hpaths : t.paths = ∅)
include hrecs hpending hpaths

lemma restarting_load (hstates : t.pathStates = ∅) :
    Restarting env recs (loadPathTableFromDisk env t file now) := by
  rw [loadPathTableFromDisk, hrecs]
  refine Sound.settleAll (fun _ hrec => hrec) (fun rec _ => (find_spec env t rec).1)
    ⟨?_, ?_, ?_⟩ hpending fun rec _ => (find_spec env t rec).2
  · simp [hpaths]
  · simp [hstates]
  · simp [hpending]

lemma complete_load (hfits : Fits env recs) :
    Complete env recs (loadPathTableFromDisk env t file now) := by
  rw [loadPathTableFromDisk, hrecs]
  refine .settleAll (fun _ hrec => hrec) (fun rec _ => (find_spec env t rec).1)
    (fun _ hrec => .inl hrec) ?_ hpending hfits
  simp [hpaths]

end Load

lemma finds_insert {i : ℕ} (hnew : t.interfaces.lookup name = none) {t' : PathNode}
    (hfaces : t'.interfaces = t.interfaces.insert name i) :
    Finds env t' rec iface ↔
      Finds env t rec iface ∨ (iface = i ∧ rec.interfaceID = interfacePersistKey env name) := by
  unfold Finds
  rw [hfaces]
  constructor
  · rintro ⟨n, hn, hkey⟩
    by_cases hname : n = name
    · rw [hname, lookup_insert] at hn
      exact .inr ⟨(some.inj hn).symm, hname ▸ hkey⟩
    · rw [lookup_insert_ne hname] at hn
      exact .inl ⟨n, hn, hkey⟩
  · rintro (⟨n, hn, hkey⟩ | ⟨rfl, hkey⟩)
    · have hname : n ≠ name := by
        rintro rfl
        rw [hnew] at hn
        cases hn
      exact ⟨n, by rw [lookup_insert_ne hname, hn], hkey⟩
    · exact ⟨name, lookup_insert _, hkey⟩

lemma activate_choice {i : ℕ} :
    (if rec.interfaceID = interfacePersistKey env name then some i else none) = some iface ↔
      iface = i ∧ rec.interfaceID = interfacePersistKey env name := by
  split_ifs with hkey
  · simp [hkey, eq_comm]
  · simp [hkey]

lemma Restarting.activates (h : Restarting env recs t) {i : ℕ}
    (hnew : t.interfaces.lookup name = none) {t' : PathNode}
    (hfaces : t'.interfaces = t.interfaces.insert name i) (hrec : rec ∈ t.pendingPathEntries) :
    (if rec.interfaceID = interfacePersistKey env name then some i else none) = some iface ↔
      Finds env t' rec iface := by
  rw [activate_choice, finds_insert hnew hfaces]
  exact ⟨.inr, fun hfinds => hfinds.resolve_left ((h.pending rec hrec).2 iface)⟩

lemma Restarting.register (h : Restarting env recs t) (r : Bytes × ℕ) :
    Restarting env recs (registerInterface env t r) := by
  rw [registerInterface]
  split_ifs with hknown
  · exact h
  have hnew := not_isSome_iff_eq_none.1 hknown
  have hold {t' : PathNode} (hfaces : t'.interfaces = t.interfaces.insert r.1 r.2) (key row)
      (hlookup : t.paths.lookup key = some row) :
      ∃ rec ∈ recs, ∃ iface, Finds env t' rec iface ∧ key = rec.key ∧ row = rec.path iface := by
    obtain ⟨rec, hrec, iface, hfinds, heq⟩ := h.source key row hlookup
    exact ⟨rec, hrec, iface, (finds_insert hnew hfaces).2 (.inl hfinds), heq⟩
  rw [activatePendingPathsForInterface]
  split_ifs with hnil
  · exact ⟨⟨hold rfl, h.states, by simp_all⟩, h.limit⟩
  · refine Sound.settleAll (fun rec hrec => (h.pending rec hrec).1)
      (fun rec hrec _ => (h.activates hnew rfl hrec).1) ⟨hold rfl, h.states, by simp⟩ rfl ?_
    intro rec hrec hnone iface hfinds
    rw [(h.activates hnew rfl hrec).2 hfinds] at hnone
    cases hnone

lemma Complete.register (hsound : Restarting env recs t) (h : Complete env recs t)
    (hfits : Fits env recs) (r : Bytes × ℕ) : Complete env recs (registerInterface env t r) := by
  rw [registerInterface]
  split_ifs with hknown
  · exact h
  have hnew := not_isSome_iff_eq_none.1 hknown
  have hplaced {t' : PathNode} (hfaces : t'.interfaces = t.interfaces.insert r.1 r.2) (rec)
      (hrec : rec ∈ recs) : rec ∈ t.pendingPathEntries ∨
        ∃ iface, Finds env t' rec iface ∧ t.paths.lookup rec.key = some (rec.path iface) := by
    refine (h.placed rec hrec).imp_right ?_
    rintro ⟨iface, hfinds, hlookup⟩
    exact ⟨iface, (finds_insert hnew hfaces).2 (.inl hfinds), hlookup⟩
  rw [activatePendingPathsForInterface]
  split_ifs
  · exact ⟨hplaced rfl, h.count⟩
  · exact settleAll (fun rec hrec => (hsound.pending rec hrec).1)
      (fun rec hrec _ => (hsound.activates hnew rfl hrec).1) (hplaced rfl) h.count rfl hfits

lemma restarting_registerAll (h : Restarting env recs t) (rs : List (Bytes × ℕ)) :
    Restarting env recs (rs.foldl (registerInterface env) t) := by
  induction rs generalizing t with
  | nil => exact h
  | cons r rs ih => exact ih (h.register r)

lemma complete_registerAll (hsound : Restarting env recs t) (h : Complete env recs t)
    (hfits : Fits env recs) (rs : List (Bytes × ℕ)) :
    Complete env recs (rs.foldl (registerInterface env) t) := by
  induction rs generalizing t with
  | nil => exact h
  | cons r rs ih => exact ih (hsound.register r) (h.register hsound hfits r)

end Restart

/-! ## Routing after a restart -/

/-- The same interfaces are registered again, under names with different keys. -/
structure SameInterfaces (env : PathEnv) (t : PathNode) (rs : List (Bytes × ℕ)) : Prop where
  lookup_iff : ∀ name iface, t.interfaces.lookup name = some iface ↔ (name, iface) ∈ rs
  nodup : (rs.map Prod.fst).Nodup
  keys : ∀ r ∈ rs, ∀ r' ∈ rs,
    interfacePersistKey env r.1 = interfacePersistKey env r'.1 → r.1 = r'.1

/-- Two nodes route alike to a destination from a time on: they have the same next hop, number of
hops and interface, agree on when the path has expired, and on every later announce. -/
def SameRouting (now : ℕ) (t t' : PathNode) (key : Bytes) : Prop :=
  (t'.paths.lookup key).map (fun row => (row.nextHop, row.hopCount, row.iface)) =
      (t.paths.lookup key).map (fun row => (row.nextHop, row.hopCount, row.iface)) ∧
    (∀ later, now ≤ later →
      (t'.paths.lookup key).map (pathExpired · later) =
        (t.paths.lookup key).map (pathExpired · later)) ∧
    ∀ input : AnnouncePathInput, now ≤ input.now → input.randomBlob.length = 10 →
      shouldUpdateAnnouncePath ((t'.paths.lookup key).map PathRow.toPath) input
          (t'.unresponsive key) =
        shouldUpdateAnnouncePath ((t.paths.lookup key).map PathRow.toPath) input
          (t.unresponsive key)

/-- A path comes through a restart: its key is a destination hash of sixteen bytes, its interface is
registered under its own name, and what is forgotten of it does not matter. -/
def Survives (env : PathEnv) (t : PathNode) (key : Bytes) (row : PathRow) : Prop :=
  key = pathMapKey (key.take truncatedHashLength) ∧
    (∃ iface, row.iface = some iface ∧ t.interfaces.lookup (env.getName iface) = some iface) ∧
    row.Forgettable (t.unresponsive key)

/-- All paths come through a restart, and the table is within the limit. -/
def Restorable (env : PathEnv) (t : PathNode) : Prop :=
  (env.maxInMemoryPaths = 0 ∨ t.paths.entries.length ≤ env.maxInMemoryPaths) ∧
    ∀ key row, t.paths.lookup key = some row → Survives env t key row

lemma take_pathMapKey {h : Bytes} (hlen : h.length = truncatedHashLength) :
    (pathMapKey h).take truncatedHashLength = h := by
  have hle : h.length ≤ pathMapKeySize := by
    rw [hlen]
    decide
  rw [pathMapKey, take_of_length_le hle, ← hlen, take_left]

lemma length_pathMapKey (h : Bytes) : (pathMapKey h).length = pathMapKeySize := by
  rw [pathMapKey, length_append, length_take, length_replicate]
  omega

section Routing

variable {env : PathEnv} {t t' : PathNode} {saved now : ℕ} {before after : List (Bytes × ℕ)}
variable {key : Bytes} {row : PathRow}

lemma registerAll_lookup (env : PathEnv) (rs : List (Bytes × ℕ)) (hnodup : (rs.map Prod.fst).Nodup)
    (hnew : ∀ r ∈ rs, t.interfaces.lookup r.1 = none) (name : Bytes) (iface : ℕ) :
    (rs.foldl (registerInterface env) t).interfaces.lookup name = some iface ↔
      t.interfaces.lookup name = some iface ∨ (name, iface) ∈ rs := by
  induction rs generalizing t with
  | nil => simp
  | cons r rs ih =>
    rw [map_cons, nodup_cons] at hnodup
    have hr := hnew r mem_cons_self
    have hfaces : (registerInterface env t r).interfaces = t.interfaces.insert r.1 r.2 := by
      rw [interfaces_register, hr]
      rfl
    rw [foldl_cons, ih hnodup.2, hfaces]
    · by_cases hname : name = r.1
      · subst hname
        rw [hr]
        simp [Prod.ext_iff, eq_comm]
      · simp [Prod.ext_iff, hname]
    · intro r' hr'
      have hne : r'.1 ≠ r.1 := fun he => hnodup.1 (he ▸ mem_map_of_mem hr')
      rw [hfaces, lookup_insert_ne hne]
      exact hnew r' (mem_cons_of_mem r hr')

lemma interfaces_load (env : PathEnv) (t : PathNode) (file : List MsgValue) (now : ℕ) :
    (loadPathTableFromDisk env t file now).interfaces = t.interfaces :=
  settleAll_interfaces _ _ _

lemma restart_lookup (h : SameInterfaces env t (before ++ after)) (file : List MsgValue)
    (name : Bytes) (iface : ℕ) :
    (restart env file now before after).interfaces.lookup name = some iface ↔
      t.interfaces.lookup name = some iface := by
  have hnodup := h.nodup
  rw [map_append, nodup_append] at hnodup
  obtain ⟨hbefore, hafter, hne⟩ := hnodup
  have hfirst : ∀ name iface, (before.foldl (registerInterface env) empty).interfaces.lookup name =
      some iface ↔ (name, iface) ∈ before := by
    intro name iface
    rw [registerAll_lookup env before hbefore fun _ _ => rfl]
    constructor
    · rintro (hnone | hmem)
      · cases hnone
      · exact hmem
    · exact .inr
  rw [restart, registerAll_lookup env after hafter, interfaces_load, hfirst, ← mem_append,
    h.lookup_iff]
  intro r hr
  rw [interfaces_load]
  cases hlookup : (before.foldl (registerInterface env) empty).interfaces.lookup r.1 with
  | none => rfl
  | some iface =>
    have hmem := (hfirst r.1 iface).1 hlookup
    exact absurd rfl (hne r.1 (mem_map.2 ⟨_, hmem, rfl⟩) r.1 (mem_map_of_mem hr))

lemma restarting_restart (env : PathEnv) (file : List MsgValue) (now : ℕ)
    (before after : List (Bytes × ℕ)) :
    Restarting env (decodePathTableEntries file now).1 (restart env file now before after) := by
  refine restarting_registerAll (restarting_load rfl ?_ ?_ ?_) after
  all_goals rw [registerAll_of_no_pending env rfl]
  all_goals rfl

lemma complete_restart (env : PathEnv) (before after : List (Bytes × ℕ)) {file : List MsgValue}
    (hfits : Fits env (decodePathTableEntries file now).1) :
    Complete env (decodePathTableEntries file now).1 (restart env file now before after) := by
  refine complete_registerAll (restarting_load rfl ?_ ?_ ?_) (complete_load rfl ?_ ?_ hfits) hfits
    after
  all_goals rw [registerAll_of_no_pending env rfl]
  all_goals rfl

lemma iface_of_finds (h : SameInterfaces env t (before ++ after)) {iface' : ℕ}
    (hsaved : Saved env t key row iface) {file : List MsgValue}
    (hfinds : Finds env (restart env file now before after) (recordOf env key row iface) iface') :
    iface' = iface := by
  obtain ⟨name, hname, hkey⟩ := hfinds
  have hname := (restart_lookup h file name iface').1 hname
  have hsame := h.keys _ ((h.lookup_iff _ _).1 hsaved.registered) _ ((h.lookup_iff _ _).1 hname)
    hkey
  change env.getName iface = name at hsame
  rw [← hsame, hsaved.registered] at hname
  exact (some.inj hname).symm

lemma path_recordOf (h : row.iface = some iface) :
    (recordOf env key row iface).path iface = row.restored := by
  obtain ⟨path, lastUpdated, hle⟩ := row
  obtain ⟨nextHop, iface', hopCount, blobs, expires⟩ := path
  subst h
  rfl

/-- **A path after the restart is one that was saved**, without what the file does not have. -/
lemma restored_source (hrecent : SavedRecently t saved now)
    (hsame : SameInterfaces env t (before ++ after))
    (hlookup : (restart env (savePathTable env t saved) now before after).paths.lookup key =
      some row) :
    ∃ key' row' iface, Saved env t key' row' iface ∧ truncatedHashLength ≤ key'.length ∧
      key = pathMapKey (key'.take truncatedHashLength) ∧ row = row'.restored := by
  obtain ⟨rec, hrec, iface, hfinds, hkey, hrow⟩ :=
    (restarting_restart env _ now before after).source key row hlookup
  obtain ⟨key', row', iface', hsaved, hlen, rfl⟩ := (mem_records_iff hrecent).1 hrec
  have hiface := iface_of_finds hsame hsaved hfinds
  subst hiface
  exact ⟨key', row', iface, hsaved, hlen, hkey, hrow.trans (path_recordOf hsaved.uses)⟩

lemma sameRouting_iff (hlookup : t.paths.lookup key = some row)
    (hlookup' : t'.paths.lookup key = some row.restored) (hstate : t'.unresponsive key = false) :
    SameRouting now t t' key ↔ row.AnswersAlike (t.unresponsive key) now := by
  simp only [SameRouting, hlookup, hlookup', hstate, map_some, some.injEq]
  exact and_iff_right rfl

lemma restart_responsive (env : PathEnv) (file : List MsgValue) (now : ℕ)
    (before after : List (Bytes × ℕ)) (key : Bytes) :
    (restart env file now before after).unresponsive key = false :=
  decide_eq_false ((restarting_restart env file now before after).states key)

lemma Restorable.fits (h : Restorable env t) (hrecent : SavedRecently t saved now) :
    Fits env (decodePathTableEntries (savePathTable env t saved) now).1 := by
  refine ⟨?_, h.1.imp_right (length_records_le env t saved now).trans⟩
  intro a ha b hb hab
  obtain ⟨ka, ra, ia, hsa, -, rfl⟩ := (mem_records_iff hrecent).1 ha
  obtain ⟨kb, rb, ib, hsb, -, rfl⟩ := (mem_records_iff hrecent).1 hb
  have hkey : ka = kb :=
    (h.2 ka ra hsa.lookup).1.trans (hab.trans (h.2 kb rb hsb.lookup).1.symm)
  subst hkey
  have hrow := hsa.lookup
  rw [hsb.lookup] at hrow
  have hrow := some.inj hrow
  subst hrow
  have hiface := hsa.uses
  rw [hsb.uses] at hiface
  rw [some.inj hiface]

section

variable (hrecent : SavedRecently t saved now) (hsame : SameInterfaces env t (before ++ after))
include hrecent hsame

lemma restored_lookup (h : Restorable env t) (hlookup : t.paths.lookup key = some row) :
    (restart env (savePathTable env t saved) now before after).paths.lookup key =
      some row.restored := by
  have hcomplete := complete_restart env before after (h.fits hrecent)
  obtain ⟨hkey, ⟨iface, hiface, hreg⟩, -⟩ := h.2 key row hlookup
  have hsaved : Saved env t key row iface := ⟨hlookup, hiface, hreg⟩
  have hlen : truncatedHashLength ≤ key.length := by
    rw [hkey, length_pathMapKey]
    decide
  have hmem : recordOf env key row iface ∈
      (decodePathTableEntries (savePathTable env t saved) now).1 :=
    (mem_records_iff hrecent).2 ⟨key, row, iface, hsaved, hlen, rfl⟩
  rcases hcomplete.placed _ hmem with hpending | ⟨iface', hfinds, hplaced⟩
  · -- its interface has been registered
    have hnot := ((restarting_restart env _ now before after).pending _ hpending).2 iface
    exact absurd ⟨env.getName iface, (restart_lookup hsame _ _ _).2 hreg, rfl⟩ hnot
  · have hiface' := iface_of_finds hsame hsaved hfinds
    subst hiface'
    rw [path_recordOf hiface] at hplaced
    rw [hkey]
    exact hplaced

section

variable (h : ∀ key,
  SameRouting now t (restart env (savePathTable env t saved) now before after) key)
include h

/-- Where every destination is routed as before, every path is there again, under a key that has
come from sixteen bytes. -/
lemma there_again (hlookup : t.paths.lookup key = some row) :
    ∃ key' row' iface, Saved env t key' row' iface ∧ truncatedHashLength ≤ key'.length ∧
      key = pathMapKey (key'.take truncatedHashLength) ∧
      (restart env (savePathTable env t saved) now before after).paths.lookup key =
        some row'.restored := by
  have hroute := (h key).1
  rw [hlookup] at hroute
  obtain ⟨row', hrow', -⟩ := map_eq_some_iff.1 hroute
  obtain ⟨key', row₀, iface, hsaved, hlen, hkey, rfl⟩ := restored_source hrecent hsame hrow'
  exact ⟨key', row₀, iface, hsaved, hlen, hkey, hrow'⟩

lemma limit_of_same : env.maxInMemoryPaths = 0 ∨ t.paths.entries.length ≤ env.maxInMemoryPaths := by
  have hlimit := (restarting_restart env (savePathTable env t saved) now before after).limit
  refine hlimit.imp_right (le_trans ?_)
  have hsub : t.paths.keys ⊆
      (restart env (savePathTable env t saved) now before after).paths.keys := by
    intro key hkey
    obtain ⟨row, hrow⟩ := isSome_iff_exists.1
      (lookup_isSome.2 (mem_keys.2 hkey))
    obtain ⟨-, row', -, -, -, -, hrow'⟩ := there_again hrecent hsame h hrow
    exact mem_keys.1 (lookup_isSome.1 (by rw [hrow', isSome_some]))
  have hlen := (subperm_of_subset t.paths.keys_nodup hsub).length_le
  simpa [AList.keys, List.keys] using hlen

lemma survives_of_same (hlookup : t.paths.lookup key = some row) : Survives env t key row := by
  have hkeys : ∀ key row, t.paths.lookup key = some row →
      key = pathMapKey (key.take truncatedHashLength) := by
    intro key row hlookup
    obtain ⟨key', -, -, -, hlen, hkey, -⟩ := there_again hrecent hsame h hlookup
    rw [hkey, take_pathMapKey (length_take_of_le hlen)]
  obtain ⟨key', row', iface, hsaved, -, hkey, hrow'⟩ := there_again hrecent hsame h hlookup
  -- the path that was read back under this key was saved from this key
  have heq : key' = key := (hkeys key' row' hsaved.lookup).trans hkey.symm
  subst heq
  have hrow := hsaved.lookup
  rw [hlookup] at hrow
  have hrow := some.inj hrow
  subst hrow
  refine ⟨hkeys _ _ hlookup, ⟨iface, hsaved.uses, hsaved.registered⟩, ?_⟩
  rw [← answers_alike_iff (hrecent.updated _ _ hlookup).2.2,
    ← sameRouting_iff hlookup hrow' (restart_responsive env _ now before after _)]
  exact h _

end

lemma restored_absent (h : Restorable env t) (hlookup : t.paths.lookup key = none) :
    (restart env (savePathTable env t saved) now before after).paths.lookup key = none := by
  cases hlookup' : (restart env (savePathTable env t saved) now before after).paths.lookup key with
  | none => rfl
  | some row =>
    obtain ⟨key', row', iface, hsaved, -, hkey, -⟩ := restored_source hrecent hsame hlookup'
    rw [hkey, ← (h.2 key' row' hsaved.lookup).1, hsaved.lookup] at hlookup
    cases hlookup

end

/-- **Routing after a restart.**  The node routes to every destination as before exactly if its
table is within the limit, every path is on a registered interface and has the key of a destination
hash of sixteen bytes, and no path had anything to forget. -/
theorem routing_restored_iff (env : PathEnv) (t : PathNode) (saved now : ℕ)
    (before after : List (Bytes × ℕ)) (hrecent : SavedRecently t saved now)
    (hsame : SameInterfaces env t (before ++ after)) :
    (∀ key, SameRouting now t (restart env (savePathTable env t saved) now before after) key) ↔
      Restorable env t := by
  constructor
  · intro h
    exact ⟨limit_of_same hrecent hsame h, fun key row => survives_of_same hrecent hsame h⟩
  · intro h key
    cases hlookup : t.paths.lookup key with
    | none =>
      have hnone := restored_absent hrecent hsame h hlookup
      simp only [SameRouting, hlookup, hnone, true_and, implies_true]
      intro input _ _
      rfl
    | some row =>
      rw [sameRouting_iff hlookup (restored_lookup hrecent hsame h hlookup) (restart_responsive env
        _ now before after key), answers_alike_iff (hrecent.updated _ _ hlookup).2.2]
      exact (h.2 key row hlookup).2.2

end Routing

section Cases

def oneInterface : PathEnv where
  sha := .padded
  getName := fun _ => [0x61]
  maxInMemoryPaths := 0
  rank := fun _ => 0

def timeFive : Bytes := [1, 2, 3, 4, 5, 0, 0, 0, 0, 5]

def announcedPath : PathRow :=
  { updatePathUnlocked none (replicate 16 9) 7 2 timeFive (1000 + pathfinderE) with
    lastUpdated := 1000
    blobs_le := by decide }

def onePath (row : PathRow) : PathNode where
  interfaces := singleton [0x61] 7
  paths := singleton (pathMapKey (replicate 16 1)) row
  pathStates := ∅
  pendingPathEntries := []

lemma onePath_lookup {row' : PathRow} {key : Bytes}
    (h : (onePath row).paths.lookup key = some row') :
    key = pathMapKey (replicate 16 1) ∧ row' = row := by
  have hmem := lookup_eq_some_iff.1 h
  rw [onePath, singleton_entries, mem_singleton] at hmem
  exact ⟨congrArg Sigma.fst hmem, eq_of_heq (Sigma.mk.inj hmem).2⟩

lemma onePath_recent (h : row.lastUpdated = 1000) : SavedRecently (onePath row) 1050 1100 := by
  refine ⟨by decide, fun key row' hlookup => ?_⟩
  obtain ⟨-, rfl⟩ := onePath_lookup hlookup
  rw [h]
  decide

lemma onePath_interfaces (row : PathRow) :
    SameInterfaces oneInterface (onePath row) [([0x61], 7)] := by
  refine ⟨fun name iface => ?_, by decide, ?_⟩
  · rw [Table.lookup_eq_some_iff, onePath, singleton_entries, mem_singleton,
      mem_singleton, Sigma.mk.injEq, Prod.mk.injEq, heq_eq_eq]
  · intro r hr r' hr' _
    rw [mem_singleton.1 hr, mem_singleton.1 hr']

/-- The announce that has made the path comes again.  Before the restart it is refused, after the
restart it is taken; and at second 605800 the path has expired before and not after. -/
theorem replay_taken_after_restart :
    SavedRecently (onePath announcedPath) 1050 1100 ∧
      SameInterfaces oneInterface (onePath announcedPath) ([] ++ [([0x61], 7)]) ∧
      ¬ SameRouting 1100 (onePath announcedPath)
        (restart oneInterface (savePathTable oneInterface (onePath announcedPath) 1050) 1100 []
          [([0x61], 7)]) (pathMapKey (replicate 16 1)) ∧
      pathExpired announcedPath 605800 = true ∧
      pathExpired announcedPath.restored 605800 = false := by
  refine ⟨onePath_recent rfl, onePath_interfaces announcedPath, ?_, by decide, by decide⟩
  intro h
  have hreplay := h.2.2 (probe 2 timeFive 1100) le_rfl rfl
  revert hreplay
  decide +kernel

def readBackPath : PathRow := announcedPath.restored

theorem readBackPath_restored :
    SavedRecently (onePath readBackPath) 1050 1100 ∧
      SameInterfaces oneInterface (onePath readBackPath) ([] ++ [([0x61], 7)]) ∧
      ∀ key, SameRouting 1100 (onePath readBackPath)
        (restart oneInterface (savePathTable oneInterface (onePath readBackPath) 1050) 1100 []
          [([0x61], 7)]) key := by
  have hrecent : SavedRecently (onePath readBackPath) 1050 1100 := onePath_recent rfl
  have hsame := onePath_interfaces readBackPath
  refine ⟨hrecent, hsame, (routing_restored_iff oneInterface (onePath readBackPath) 1050 1100 []
    [([0x61], 7)] hrecent hsame).2 ⟨.inl rfl, ?_⟩⟩
  intro key row hlookup
  obtain ⟨rfl, rfl⟩ := onePath_lookup hlookup
  refine ⟨by decide, ⟨7, rfl, by decide⟩, ?_, .inl ⟨rfl, rfl⟩⟩
  intro blob hblob
  cases hblob

end Cases

end PathNode

end Reticulum

import Reticulum.Transport.AnnounceIntake

/-!
# Hop counts and the number for "unreachable"

`HopsTo` (`pkg/transport`) answers with the hop count of the path, or with `PathfinderM` if there is
none.  So no path may have `PathfinderM` hops.  `handleAnnouncePacket` refuses what is above
`MaxHops`, `loadPathTableFromDisk` takes any byte from the file, and `applyPathHopRebalance` takes
what a link proof has come on: **`HopNode.hops_below_of_allowed`**, `HopNode.announce_of_all_hops`.
All times are nanoseconds.
-/

namespace Reticulum

open Rate.Constants Packet.Constants AnnounceNode

/-! ## The node -/

def rebalanceWindow : ℕ := 60 * second
def rebalanceMaxPerDest : ℕ := 8

structure RebalanceEntry where
  windowStart : ℕ
  count : ℕ
deriving DecidableEq

/-- The node that handles announces, with the paths from the file that wait for their interface and
the counters of `allowRebalanceDest`. -/
structure HopNode where
  node : AnnounceNode
  interfaces : Map Bytes ℕ
  pendingPathEntries : List PathRecord
  rebalanceByDest : Map Bytes RebalanceEntry

/-- An announce, a path table that is loaded, an interface that is registered, a rebalance after a
link proof, and a path that is asked for. -/
inductive HopEvent where
  | announce (env : AnnounceEnv) (ans : AnnounceAnswers) (data : Bytes) (iface : Option ℕ) (now : ℕ)
  | load (env : PathEnv) (file : List MsgValue) (now : ℕ)
  | register (env : PathEnv) (name : Bytes) (iface : ℕ)
  | rebalance (env : AnnounceEnv) (destHash : Bytes) (newHops : UInt8) (proofIface : Option ℕ)
      (now : ℕ)
  | hasPath (destinationHash : Bytes) (now : ℕ)

def unreachable : UInt8 := .ofNat pathfinderM

def AnnounceNode.hopsTo (t : AnnounceNode) (destinationHash : Bytes) (now : ℕ) : UInt8 :=
  match t.livePath destinationHash now with
  | none => unreachable
  | some path => path.hopCount

def PathRecord.inNanoseconds (rec : PathRecord) : PathRecord :=
  { rec with lastUpdated := rec.lastUpdated * second }

namespace HopNode

def pathNode (s : HopNode) : PathNode :=
  ⟨s.interfaces, s.node.paths, s.node.pathStates, s.pendingPathEntries⟩

def withPathNode (s : HopNode) (t : PathNode) : HopNode :=
  { s with
    node := { s.node with paths := t.paths, pathStates := t.pathStates }
    interfaces := t.interfaces
    pendingPathEntries := t.pendingPathEntries }

def handleAnnouncePacket (env : AnnounceEnv) (s : HopNode) (ans : AnnounceAnswers) (data : Bytes)
    (iface : Option ℕ) (now : ℕ) : HopNode :=
  let env := { env with interfaces := fun name => s.interfaces.lookup name }
  { s with node := (s.node.handleAnnouncePacket env ans data iface now).1 }

def loadPathTableFromDisk (env : PathEnv) (s : HopNode) (file : List MsgValue) (now : ℕ) :
    HopNode :=
  let records := (decodePathTableEntries file (now / second)).1.map .inNanoseconds
  let choose := fun rec : PathRecord => s.pathNode.findInterfaceForPersistKey env rec.interfaceID
  let settled := records.foldl (.settle choose) s.pathNode
  s.withPathNode (settled.evictPathsIfNeededUnlocked env)

def registerInterface (env : PathEnv) (s : HopNode) (name : Bytes) (iface : ℕ) : HopNode :=
  s.withPathNode (s.pathNode.registerInterface env (name, iface))

def allowRebalanceDest (s : HopNode) (destHash : Bytes) (now : ℕ) : HopNode × Bool :=
  let key := pathMapKey destHash
  let fresh := { s with rebalanceByDest := s.rebalanceByDest.insert key ⟨now, 1⟩ }
  if destHash.length = 0 then (s, false)
  else
    match s.rebalanceByDest.lookup key with
    | none => (fresh, true)
    | some e =>
      if rebalanceWindow < now - e.windowStart then (fresh, true)
      else if rebalanceMaxPerDest ≤ e.count then (s, false)
      else
        ({ s with rebalanceByDest := s.rebalanceByDest.insert key { e with count := e.count + 1 } },
          true)

def pathingAffinityLocked (env : AnnounceEnv) (iface : ℕ) : ℤ :=
  let g := (env.iface iface).gravity
  let pen := env.penalty (env.iface iface).name
  if pen ≤ 0 then g else g - min pen 32

/-- A path on an interface of much higher gravity does not get longer. -/
def refusesRebalance (env : AnnounceEnv) (path : PathRow) (newHops : UInt8)
    (proofIface : Option ℕ) : Bool :=
  match path.iface, proofIface with
  | some cur, some proof =>
    path.hopCount < newHops ∧
      pathingAffinityLocked env proof + 10 ≤ pathingAffinityLocked env cur
  | _, _ => false

def applyPathHopRebalance (env : AnnounceEnv) (s : HopNode) (destHash : Bytes) (newHops : UInt8)
    (proofIface : Option ℕ) (now : ℕ) : HopNode × Bool :=
  if destHash.length = 0 then (s, false)
  else
    match s.allowRebalanceDest destHash now with
    | (s, false) => (s, false)
    | (s, true) =>
      let key := pathMapKey destHash
      match s.node.paths.lookup key with
      | none => (s, true)
      | some path =>
        if refusesRebalance env path newHops proofIface then (s, false)
        else
          let path := { path with hopCount := newHops, lastUpdated := now }
          ({ s with node := { s.node with paths := s.node.paths.insert key path } }, true)

def step (s : HopNode) : HopEvent → HopNode
  | .announce env ans data iface now => s.handleAnnouncePacket env ans data iface now
  | .load env file now => s.loadPathTableFromDisk env file now
  | .register env name iface => s.registerInterface env name iface
  | .rebalance env destHash newHops proofIface now =>
    (s.applyPathHopRebalance env destHash newHops proofIface now).1
  | .hasPath destinationHash now => { s with node := (s.node.hasPath destinationHash now).1 }

/-! ## What is to hold -/

def Below (hops : UInt8) : Prop := hops.toNat < pathfinderM

instance decidableBelow (hops : UInt8) : Decidable (Below hops) :=
  inferInstanceAs (Decidable (_ < _))

def HopsBelow (paths : Map Bytes PathRow) : Prop :=
  Table.Each (fun row : PathRow => Below row.hopCount) paths

/-- `HopsTo` returns `PathfinderM` for the destinations without a usable path and for no other. -/
def HopsToExact (s : HopNode) : Prop :=
  ∀ destinationHash now, s.node.hopsTo destinationHash now = unreachable ↔
    s.node.livePath destinationHash now = none

/-- **The condition on a step.**  An announce does not count exactly `PathfinderM` hops, and what is
loaded or comes from a proof is less than that. -/
def Allowed (_ : HopNode) : HopEvent → Prop
  | .announce env _ data iface _ => env.announceHops data iface ≠ pathfinderM
  | .load _ file now => ∀ rec ∈ (decodePathTableEntries file (now / second)).1, Below rec.hops
  | .register _ _ _ => True
  | .rebalance _ _ newHops _ _ => Below newHops
  | .hasPath _ _ => True

instance decidableAllowed (s : HopNode) (e : HopEvent) : Decidable (s.Allowed e) := by
  cases e <;> unfold Allowed <;> infer_instance

/-- The paths in the table and those that wait have fewer than `PathfinderM` hops. -/
structure Bounded (s : HopNode) : Prop where
  paths : HopsBelow s.node.paths
  pending : ∀ rec ∈ s.pendingPathEntries, Below rec.hops

/-! ## Announces -/

section Announces

variable {t : AnnounceNode} (env : AnnounceEnv) {iface : Option ℕ} {data : Bytes}

lemma hopsBelow_hasPath (h : HopsBelow t.paths) (destinationHash : Bytes) (now : ℕ) :
    HopsBelow (t.hasPath destinationHash now).1.paths := by
  simp only [hasPath]
  cases t.paths.lookup (pathMapKey destinationHash) with
  | none => exact h
  | some path =>
    simp only
    split_ifs
    · exact h.erase (pathMapKey destinationHash)
    · exact h

lemma hopsBelow_isNewDest (h : HopsBelow t.paths) (iface : Option ℕ) (destinationHash : Bytes)
    (now : ℕ) : HopsBelow (t.isNewDest iface destinationHash now).1.paths := by
  cases iface with
  | none => exact h
  | some i => exact hopsBelow_hasPath h destinationHash now

lemma hopsBelow_updatePathUnlocked (h : HopsBelow t.paths) (destinationHash nextHop name : Bytes)
    {hops : UInt8} (hhops : Below hops) (randomBlob : Bytes) (now : ℕ) :
    HopsBelow
      (t.updatePathUnlocked env destinationHash nextHop name hops randomBlob now).paths := by
  simp only [AnnounceNode.updatePathUnlocked]
  cases env.interfaces name with
  | none => exact h
  | some out => exact (h.insert (pathMapKey destinationHash) hhops).eraseAll _

lemma hopsBelow_learnPath (h : HopsBelow t.paths) (hdr : AnnounceHeader) (randomHash : Bytes)
    (iface : Option ℕ) {hops : UInt8} (hhops : Below hops) (now : ℕ) :
    HopsBelow (t.learnPath env hdr randomHash iface hops now).paths := by
  cases iface with
  | none => exact h
  | some i =>
    simp only [learnPath]
    split
    · exact hopsBelow_updatePathUnlocked env h _ _ _ hhops randomHash now
    · exact h

lemma below_announceHops (hle : ¬ maxHops < env.announceHops data iface)
    (hne : env.announceHops data iface ≠ pathfinderM) :
    Below (.ofNat (env.announceHops data iface)) := by
  simp only [maxHops, pathfinderM, Below, UInt8.toNat_ofNat'] at hle hne ⊢
  omega

lemma hopsBelow_claimAnnounce (h : HopsBelow t.paths) (ans : AnnounceAnswers)
    (hdr : AnnounceHeader) (ann : AnnounceFields) (hne : env.announceHops data iface ≠ pathfinderM)
    (now : ℕ) : HopsBelow (t.claimAnnounce env ans data hdr ann iface now).1.paths := by
  have hclaimed := hopsBelow_isNewDest
    (t := t.rememberSeenAnnounceUnlocked env (env.announceHash data) now) h iface
    hdr.destinationHash now
  simp only [claimAnnounce]
  split_ifs with hknown hmax
  · exact h
  · exact hclaimed
  · rw [(spreadAnnounce_spec env ans _ data iface now hdr ann _).1]
    exact hopsBelow_learnPath env hclaimed hdr ann.randomHash iface
      (below_announceHops env hmax hne) now

/-- **An announce** keeps hop counts small if it does not count exactly `PathfinderM` hops. -/
lemma hopsBelow_handleAnnouncePacket (h : HopsBelow t.paths) (ans : AnnounceAnswers)
    (hne : env.announceHops data iface ≠ pathfinderM) (now : ℕ) :
    HopsBelow (t.handleAnnouncePacket env ans data iface now).1.paths := by
  simp only [AnnounceNode.handleAnnouncePacket]
  cases announceHeader data with
  | error err => split_ifs <;> exact h
  | ok hdr =>
    simp only
    split_ifs
    · exact h
    · exact h
    · exact h
    · cases env.verifiedAnnounce ans.cryptoAllowed data hdr with
      | error err => exact h
      | ok ann => exact hopsBelow_claimAnnounce env h ans hdr ann hne now

end Announces

/-! ## Path tables from the file -/

lemma hopsBelow_settleAll {t : PathNode} (choose : PathRecord → Option ℕ) (h : HopsBelow t.paths)
    {recs : List PathRecord} (hrecs : ∀ rec ∈ recs, Below rec.hops) :
    HopsBelow (recs.foldl (.settle choose) t).paths := by
  intro key row hrow
  rcases PathNode.settleAll_source hrow with hold | ⟨rec, hrec, iface, -, -, rfl⟩
  · exact h key row hold
  · exact hrecs rec hrec

variable {s : HopNode}

lemma Bounded.load (h : s.Bounded) (env : PathEnv) {file : List MsgValue} {now : ℕ}
    (hfile : ∀ rec ∈ (decodePathTableEntries file (now / second)).1, Below rec.hops) :
    (s.loadPathTableFromDisk env file now).Bounded := by
  have hrecs : ∀ rec ∈ (decodePathTableEntries file (now / second)).1.map PathRecord.inNanoseconds,
      Below rec.hops := by
    intro rec hrec
    obtain ⟨rec', hrec', rfl⟩ := List.mem_map.1 hrec
    exact hfile rec' hrec'
  refine ⟨(hopsBelow_settleAll _ h.paths hrecs).eraseAll _, fun rec hrec => ?_⟩
  simp only [loadPathTableFromDisk, withPathNode, PathNode.evictPathsIfNeededUnlocked,
    PathNode.settleAll_pending, List.mem_append, List.mem_filter] at hrec
  rcases hrec with hrec | ⟨hrec, -⟩
  · exact h.pending rec hrec
  · exact hrecs rec hrec

lemma Bounded.register (h : s.Bounded) (env : PathEnv) (name : Bytes) (iface : ℕ) :
    (s.registerInterface env name iface).Bounded := by
  simp only [registerInterface, PathNode.registerInterface]
  split_ifs
  · exact h
  · simp only [PathNode.activatePendingPathsForInterface]
    split_ifs
    · exact ⟨h.paths, h.pending⟩
    · refine ⟨(hopsBelow_settleAll _ h.paths h.pending).eraseAll _, fun rec hrec => ?_⟩
      simp only [withPathNode, PathNode.evictPathsIfNeededUnlocked, PathNode.settleAll_pending,
        List.nil_append, List.mem_filter] at hrec
      exact h.pending rec hrec.1

/-! ## Rebalances -/

lemma allowRebalanceDest_eq (s : HopNode) (destHash : Bytes) (now : ℕ) :
    ∃ counters, (s.allowRebalanceDest destHash now).1 = { s with rebalanceByDest := counters } := by
  simp only [allowRebalanceDest]
  split_ifs
  · exact ⟨_, rfl⟩
  · cases s.rebalanceByDest.lookup (pathMapKey destHash) with
    | none => exact ⟨_, rfl⟩
    | some e =>
      simp only
      split_ifs
      · exact ⟨_, rfl⟩
      · exact ⟨_, rfl⟩
      · exact ⟨_, rfl⟩

lemma Bounded.rebalance (h : s.Bounded) (env : AnnounceEnv) (destHash : Bytes) {newHops : UInt8}
    (hnew : Below newHops) (proofIface : Option ℕ) (now : ℕ) :
    (s.applyPathHopRebalance env destHash newHops proofIface now).1.Bounded := by
  simp only [applyPathHopRebalance]
  split_ifs
  · exact h
  · obtain ⟨counters, hcounters⟩ := s.allowRebalanceDest_eq destHash now
    rcases hallow : s.allowRebalanceDest destHash now with ⟨s', _ | _⟩
    · rw [hallow] at hcounters
      cases hcounters
      exact ⟨h.paths, h.pending⟩
    · rw [hallow] at hcounters
      cases hcounters
      simp only
      cases s.node.paths.lookup (pathMapKey destHash) with
      | none => exact ⟨h.paths, h.pending⟩
      | some path =>
        simp only
        split_ifs
        · exact ⟨h.paths, h.pending⟩
        · exact ⟨h.paths.insert (pathMapKey destHash) hnew, h.pending⟩

/-! ## Runs -/

lemma Bounded.step (s : HopNode) (e : HopEvent) (h : s.Bounded) (he : s.Allowed e) :
    (s.step e).Bounded := by
  cases e with
  | announce env ans data iface now =>
    refine ⟨?_, h.pending⟩
    exact hopsBelow_handleAnnouncePacket
      { env with interfaces := fun name => s.interfaces.lookup name } h.paths ans he now
  | load env file now => exact h.load env he
  | register env name iface => exact h.register env name iface
  | rebalance env destHash newHops proofIface now =>
    exact h.rebalance env destHash he proofIface now
  | hasPath destinationHash now =>
    exact ⟨hopsBelow_hasPath h.paths destinationHash now, h.pending⟩

lemma hopsToExact_of_below (h : HopsBelow s.node.paths) : s.HopsToExact := by
  intro destinationHash now
  simp only [hopsTo]
  cases hlive : s.node.livePath destinationHash now with
  | none => simp
  | some path =>
    simp only [reduceCtorEq, iff_false]
    intro heq
    have hlookup := (Option.filter_eq_some_iff.1 hlive).1
    have hlt : Below path.hopCount := h _ path hlookup
    rw [heq] at hlt
    exact absurd hlt (by decide)

/-- **Hop counts stay below the number for "unreachable"** in every run of a node that starts
without paths, if its steps are allowed. -/
theorem hops_below_of_allowed (s : HopNode) (hpaths : s.node.paths = ∅)
    (hpending : s.pendingPathEntries = []) (es : List HopEvent) (h : Run.Along step Allowed s es) :
    Run.Always step (fun s => HopsBelow s.node.paths ∧ s.HopsToExact) s es := by
  have hbounded : s.Bounded := by
    refine ⟨?_, ?_⟩
    · rw [hpaths]
      exact Table.each_empty
    · rw [hpending]
      intro rec hrec
      cases hrec
  exact (Run.always_of_along .step hbounded h).mono fun t ht =>
    ⟨ht.paths, hopsToExact_of_below ht.paths⟩

/-! ## An announce on all hops -/

def bare : HopNode where
  node := ⟨∅, ∅, ∅, fun _ => none, [], []⟩
  interfaces := (∅ : Map Bytes ℕ).insert [0x61] 0
  pendingPathEntries := []
  rebalanceByDest := ∅

def announceWith (hops : UInt8) (now : ℕ) : HopEvent :=
  .announce AnnounceHistory.oneHandler AnnounceHistory.allAllowed
    ((AnnounceHistory.announceOf 1).set 1 hops) (some 0) now

def announcedDest : Bytes := (1 :: .replicate 9 0) ++ .replicate 6 0

/-- The last number that makes a path with an answer of its own. -/
theorem hops_below_of_126 :
    let es := [announceWith 126 0,
      .rebalance AnnounceHistory.oneHandler announcedDest 3 (some 0) second]
    Run.Always step (fun s => HopsBelow s.node.paths ∧ s.HopsToExact) bare es ∧
      (Run.exec step bare [announceWith 126 0]).node.hopsTo announcedDest second = 127 ∧
        (Run.exec step bare es).node.hopsTo announcedDest second = 3 :=
  ⟨hops_below_of_allowed bare rfl rfl _ (by decide +kernel), by decide +kernel, by decide +kernel⟩

/-- **An announce with `127` in its hop field** makes a path of `PathfinderM` hops.  It can be used,
but `HopsTo` answers as if there was none. -/
theorem announce_of_all_hops :
    let s := Run.exec step bare [announceWith 127 0]
    (s.node.livePath announcedDest second).map (fun path => path.hopCount) = some unreachable ∧
      ¬ s.HopsToExact := by
  intro s
  have hpath : (s.node.livePath announcedDest second).map (fun path => path.hopCount) =
      some unreachable := by decide +kernel
  refine ⟨hpath, fun hexact => ?_⟩
  have hanswer : s.node.hopsTo announcedDest second = unreachable := by decide +kernel
  rw [(hexact announcedDest second).1 hanswer] at hpath
  cases hpath

end HopNode

end Reticulum

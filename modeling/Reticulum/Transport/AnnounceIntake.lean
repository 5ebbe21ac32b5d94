import Reticulum.Rate.Ingress
import Reticulum.Transport.AnnounceHeader
import Reticulum.Transport.PathPersist

/-!
# What a node does with an announce

`handleAnnouncePacket` (`pkg/transport`) checks an announce, makes a path of it, tells the
**announce handlers**, and forwards it.  So that the copies of one announce are handled once, its
hash is *claimed* in `seenAnnounces` for an hour.  An announce that is held by the ingress control
gives its claim up and comes in a second time when it is released; but the handlers have been told
by then, and are told again: **`told_once_iff`**.  All times are nanoseconds.
-/

namespace Reticulum

open Rate.Constants Wire.Constants List

/-! ## Constants -/

def seenAnnounceTTL : ℕ := 60 * 60 * second

def defaultMaxSeenAnnounces : ℕ := 100000
def maxPendingAnnounceForwards : ℕ := 256

def apPathTime : ℕ := 24 * 60 * 60 * second
def roamingPathTime : ℕ := 6 * 60 * 60 * second

def headerContextFlagMask : UInt8 := 0x20
def destTypeGroup : UInt8 := 0x01
def destTypePlain : UInt8 := 0x02

/-! ## The announce in a packet -/

def ratcheted (data : Bytes) : Bool := (data.getD 0 0 &&& headerContextFlagMask) >>> 5 = 1

def unannounceable (data : Bytes) : Bool :=
  let destType := (data.getD 0 0 &&& headerDestTypeMask) >>> 2
  destType = destTypePlain || destType = destTypeGroup

structure AnnounceFields where
  pubKey : Bytes
  nameHash : Bytes
  randomHash : Bytes
  ratchetData : Bytes
  signature : Bytes
  appData : Bytes
deriving DecidableEq

variable {hdr : AnnounceHeader} {ann : AnnounceFields}

def announceFields (ratchet : Bool) (payload : Bytes) : Except String AnnounceFields :=
  let pos := 64 + 10 + 10
  if payload.length < pos + 64 then .error "payload too small for announce"
  else if ratchet && decide (payload.length < pos + 32 + 64) then
    .error "payload too small for announce with ratchet"
  else
    let pos' := if ratchet then pos + 32 else pos
    .ok {
      pubKey := payload.take 64
      nameHash := (payload.drop 64).take 10
      randomHash := (payload.drop 74).take 10
      ratchetData := (payload.take pos').drop pos
      signature := (payload.drop pos').take 64
      appData := payload.drop (pos' + 64) }

def AnnounceFields.signData (ann : AnnounceFields) (destinationHash : Bytes) : Bytes :=
  destinationHash ++ ann.pubKey ++ ann.nameHash ++ ann.randomHash ++ ann.ratchetData ++ ann.appData

/-! ## The surroundings of a node -/

inductive InterfaceMode where
  | full
  | point
  | accessPoint
  | roaming
  | boundary
  | gateway
  | internal
deriving DecidableEq

structure AnnounceInterface where
  name : Bytes
  localClient : Bool
  mode : InterfaceMode
  gravity : ℤ
deriving DecidableEq

structure AnnounceHandler where
  id : ℕ
  receivePathResponses : Bool
deriving DecidableEq

/-- What a node does not change while it handles announces: the hash and the signature scheme, the
blackhole table, interfaces, penalties, handlers and settings.  Maps are gone through in an order
of their own, which `rank` gives. -/
structure AnnounceEnv where
  sha : Sha256
  verify : Bytes → Bytes → Bytes → Bool
  blackholed : Bytes → Bool
  iface : ℕ → AnnounceInterface
  interfaces : Bytes → Option ℕ
  penalty : Bytes → ℤ
  handlers : List AnnounceHandler
  handlers_nodup : (handlers.map AnnounceHandler.id).Nodup
  transportEnabled : Bool
  maxInMemoryPaths : ℕ
  rank : Bytes → ℕ

/-- What other components answer to one call: the admission of a signature check, the table of known
identities, the limit on the rate of announces, and the delay of a rebroadcast. -/
structure AnnounceAnswers where
  cryptoAllowed : Bool
  rememberIdentity : Bool
  announceRateAllow : Bool
  rebroadcastDelay : ℕ
deriving DecidableEq

namespace AnnounceEnv

variable (env : AnnounceEnv)

def announceHash (data : Bytes) : Bytes := env.sha.sum (announceHashed data)

def identityHash (pubKey : Bytes) : Bytes := (env.sha.sum pubKey).take addrHashSize

def isLocalClientInterface (iface : Option ℕ) : Bool :=
  iface.any fun i => (env.iface i).localClient

/-- The hops of an announce, this one included unless it comes from a local client. -/
def announceHops (data : Bytes) (iface : Option ℕ) : ℕ :=
  if env.isLocalClientInterface iface then (data.getD 1 0).toNat else (data.getD 1 0).toNat + 1

def ifacePathPenalty (name : Bytes) : ℤ := if name = [] then 0 else env.penalty name

def pathingAffinity : Option ℕ → ℤ
  | none => 0
  | some i =>
    let g := (env.iface i).gravity
    let pen := env.ifacePathPenalty (env.iface i).name
    if pen ≤ 0 then g else g - min pen 32

def pathLifetimeFor (iface : ℕ) : ℕ :=
  match (env.iface iface).mode with
  | .accessPoint => apPathTime
  | .roaming => roamingPathTime
  | _ => pathfinderE * second

/-- The checks that an announce has to pass once its header is read; `none` for an announce that is
dropped without an error. -/
def verifiedAnnounce (cryptoAllowed : Bool) (data : Bytes) (hdr : AnnounceHeader) :
    Except (Option String) AnnounceFields :=
  match announceFields (ratcheted data) hdr.payload with
  | .error e => .error (some e)
  | .ok ann =>
    if !cryptoAllowed then .error (some "dos_protection refused crypto")
    else if !env.verify ann.pubKey (ann.signData hdr.destinationHash) ann.signature then
      .error (some "invalid announce signature")
    else if env.blackholed (env.identityHash ann.pubKey) then .error none
    else if hdr.destinationHash ≠
        (env.sha.sum (ann.nameHash ++ env.identityHash ann.pubKey)).take 16 then
      .error (some "destination hash mismatch")
    else .ok ann

/-- The announce in a packet, if it passes all checks but the one whether it has been seen. -/
def validated (ans : AnnounceAnswers) (data : Bytes) (iface : Option ℕ) :
    Option (AnnounceHeader × AnnounceFields) :=
  if unannounceable data then none
  else
    match announceHeader data with
    | .error _ => none
    | .ok hdr =>
      match env.verifiedAnnounce ans.cryptoAllowed data hdr with
      | .error _ => none
      | .ok ann =>
        if ans.rememberIdentity ∧ env.announceHops data iface ≤ maxHops then some (hdr, ann)
        else none

end AnnounceEnv

/-- A handler takes announces that answer a path request only if it asks for them. -/
def AnnounceHandler.takes (isPathResponse : Bool) (handler : AnnounceHandler) : Bool :=
  !isPathResponse || handler.receivePathResponses

def AnnounceHeader.isPathResponse (hdr : AnnounceHeader) : Bool := hdr.context = contextPathResponse

def PathRow.announced (existing : Option PathRow) (nextHop : Bytes) (iface : ℕ) (hops : UInt8)
    (randomBlob : Bytes) (expires now : ℕ) : PathRow :=
  { updatePathUnlocked (existing.map toPath) nextHop iface hops randomBlob expires with
    lastUpdated := now
    blobs_le := by
      have hfirst : (if randomBlob.length = 10 then appendRandomBlob [] randomBlob
          else []).length ≤ maxRandomBlobs := by
        split
        · exact Announce.length_appendRandomBlob_le (Nat.zero_le _) randomBlob
        · exact Nat.zero_le _
      cases existing with
      | none => exact hfirst
      | some row =>
        simp only [updatePathUnlocked, Option.map_some]
        split
        · exact Announce.length_appendRandomBlob_le row.blobs_le randomBlob
        · exact hfirst }

/-! ## The node -/

/-- A call of a handler.  The hash of the announce is kept along, to tell announces apart. -/
structure AnnounceNotice where
  handler : ℕ
  announceHash : Bytes
  destinationHash : Bytes
  pubKey : Bytes
  appData : Bytes
  hops : UInt8
deriving DecidableEq

structure DelayedAnnounceJob where
  due : ℕ
  data : Bytes
  dst : Bytes
  receivedOn : Option ℕ
deriving DecidableEq

structure AnnounceNode where
  seenAnnounces : Map Bytes ℕ
  paths : Map Bytes PathRow
  pathStates : Map Bytes PathState
  ingress : Bytes → Option (IngressControl Bytes Bytes)
  pendingAnnounceJobs : List DelayedAnnounceJob
  notified : List AnnounceNotice

namespace AnnounceNode

section Stages

variable (env : AnnounceEnv) (t : AnnounceNode) (announceHash : Bytes)

/-! ### Claims -/

def duplicate (now : ℕ) : Bool :=
  (t.seenAnnounces.lookup announceHash).any fun last => now - last < seenAnnounceTTL

def evictSeenAnnouncesUnlocked : AnnounceNode :=
  { t with
    seenAnnounces := Table.eraseAll t.seenAnnounces
      (Table.surplus defaultMaxSeenAnnounces 64 id env.rank t.seenAnnounces) }

def rememberSeenAnnounceUnlocked (now : ℕ) : AnnounceNode :=
  evictSeenAnnouncesUnlocked env
    { t with seenAnnounces := t.seenAnnounces.insert announceHash now }

def unclaimAnnounce : AnnounceNode :=
  { t with seenAnnounces := t.seenAnnounces.erase announceHash }

def cleanupSeenAnnounces (now : ℕ) : AnnounceNode :=
  evictSeenAnnouncesUnlocked env
    { t with
      seenAnnounces := Table.keep (fun _ last => !decide (last + seenAnnounceTTL < now))
        t.seenAnnounces }

/-! ### Paths -/

def livePath (destinationHash : Bytes) (now : ℕ) : Option PathRow :=
  (t.paths.lookup (pathMapKey destinationHash)).filter fun path => !pathExpiredIn second path now

/-- Whether there is a path that has not expired.  One that has is dropped. -/
def hasPath (destinationHash : Bytes) (now : ℕ) : AnnounceNode × Bool :=
  let key := pathMapKey destinationHash
  match t.paths.lookup key with
  | none => (t, false)
  | some path =>
    if pathExpiredIn second path now then
      ({ t with paths := t.paths.erase key, pathStates := t.pathStates.erase key }, false)
    else (t, true)

/-- Whether the announce is of a destination without a path, for one that came on an interface. -/
def isNewDest (iface : Option ℕ) (destinationHash : Bytes) (now : ℕ) : AnnounceNode × Bool :=
  match iface with
  | none => (t, false)
  | some _ =>
    let (t, known) := t.hasPath destinationHash now
    (t, !known)

def evictPathsIfNeededUnlocked : AnnounceNode :=
  let keys := Table.surplus env.maxInMemoryPaths 64 PathRow.lastUpdated env.rank t.paths
  { t with
    paths := Table.eraseAll t.paths keys
    pathStates := Table.eraseAll t.pathStates keys }

def updatePathUnlocked (destinationHash nextHop interfaceName : Bytes) (hops : UInt8)
    (randomBlob : Bytes) (now : ℕ) : AnnounceNode :=
  match env.interfaces interfaceName with
  | none => t
  | some iface =>
    let key := pathMapKey destinationHash
    let row := .announced (t.paths.lookup key) nextHop iface hops randomBlob
      (now + env.pathLifetimeFor iface) now
    evictPathsIfNeededUnlocked env
      { t with
        paths := t.paths.insert key row
        pathStates := t.pathStates.insert key .unknown }

def announcePathInput (existing : Option PathRow) (iface : ℕ) (hops : UInt8) (randomHash : Bytes)
    (now : ℕ) : AnnouncePathInput where
  destinationKnown := existing.isSome
  announceHops := hops
  randomBlob := randomHash
  now
  announceAffinity := env.pathingAffinity (some iface)
  currentAffinity := env.pathingAffinity (existing.bind fun row => row.iface)
  affinityKnown := existing.all fun row => row.iface.isSome

def learnPath (hdr : AnnounceHeader) (randomHash : Bytes) (iface : Option ℕ) (hops : UInt8)
    (now : ℕ) : AnnounceNode :=
  match iface with
  | none => t
  | some i =>
    let nextHop := if hdr.receivedFrom = [] then hdr.destinationHash else hdr.receivedFrom
    let key := pathMapKey hdr.destinationHash
    let existing := t.paths.lookup key
    let pathUnresponsive := t.pathStates.lookup key = some .unresponsive
    if shouldUpdateAnnouncePath (existing.map PathRow.toPath)
        (announcePathInput env existing i hops randomHash now) pathUnresponsive then
      t.updatePathUnlocked env hdr.destinationHash nextHop (env.iface i).name hops randomHash now
    else t

/-! ### Handlers, ingress control and forwarding -/

def notices (hdr : AnnounceHeader) (ann : AnnounceFields) (hops : UInt8) : List AnnounceNotice :=
  (env.handlers.filter (AnnounceHandler.takes hdr.isPathResponse)).map fun handler =>
    { handler := handler.id
      announceHash
      destinationHash := hdr.destinationHash
      pubKey := ann.pubKey
      appData := ann.appData
      hops }

def notifyAnnounceHandlersFiltered (hdr : AnnounceHeader)
    (ann : AnnounceFields) (hops : UInt8) : AnnounceNode :=
  { t with notified := t.notified ++ notices env announceHash hdr ann hops }

def processAnnounceHash (iface : Option ℕ) (announceHash data : Bytes) (isNewDest : Bool)
    (now : ℕ) : AnnounceNode × Bool :=
  match iface with
  | none => (t, true)
  | some i =>
    match t.ingress (env.iface i).name with
    | none => (t, true)
    | some ic =>
      let (ic, process) := ic.processAnnounceHash now announceHash data isNewDest
      ({ t with ingress := Function.update t.ingress (env.iface i).name (some ic) }, process)

variable (ans : AnnounceAnswers) (data : Bytes)

/-- A rebroadcast is queued, with the number of hops in the copy, unless the queue is full. -/
def scheduleAnnounceForward (destinationHash : Bytes)
    (iface : Option ℕ) (hops : UInt8) (now : ℕ) : AnnounceNode :=
  if maxPendingAnnounceForwards ≤ t.pendingAnnounceJobs.length then t
  else
    { t with
      pendingAnnounceJobs := t.pendingAnnounceJobs ++
        [⟨now + ans.rebroadcastDelay, data.set 1 hops, destinationHash, iface⟩] }

def forwardAnnounce (hdr : AnnounceHeader)
    (iface : Option ℕ) (hops : UInt8) (now : ℕ) : AnnounceNode :=
  if !env.transportEnabled then
    if env.isLocalClientInterface iface && !hdr.isPathResponse then
      t.scheduleAnnounceForward ans data hdr.destinationHash iface hops now
    else t
  else if hdr.isPathResponse then t
  else if !ans.announceRateAllow then t
  else t.scheduleAnnounceForward ans data hdr.destinationHash iface hops now

def processDelayedAnnounceJobs (now : ℕ) : AnnounceNode :=
  { t with pendingAnnounceJobs := t.pendingAnnounceJobs.filter fun job => now < job.due }

/-! ### The call -/

/-- What comes after the path is known to be there or not: path, handlers, ingress control. -/
def spreadAnnounce (hdr : AnnounceHeader)
    (ann : AnnounceFields) (iface : Option ℕ) (isNewDest : Bool) (now : ℕ) : AnnounceNode :=
  let announceHash := env.announceHash data
  let hops := .ofNat (env.announceHops data iface)
  let t := t.learnPath env hdr ann.randomHash iface hops now
  let t := t.notifyAnnounceHandlersFiltered env announceHash hdr ann hops
  let (t, process) := t.processAnnounceHash env iface announceHash data isNewDest now
  -- an announce that is held gives up its claim, for the time when it is released
  if !process then t.unclaimAnnounce announceHash
  else t.forwardAnnounce env ans data hdr iface hops now

def claimAnnounce (hdr : AnnounceHeader)
    (ann : AnnounceFields) (iface : Option ℕ) (now : ℕ) : AnnounceNode × Option String :=
  let announceHash := env.announceHash data
  let t := t.rememberSeenAnnounceUnlocked env announceHash now
  if !ans.rememberIdentity then
    (t.unclaimAnnounce announceHash, some "announce public key mismatch")
  else
    let (t, isNewDest) := t.isNewDest iface hdr.destinationHash now
    if maxHops < env.announceHops data iface then (t.unclaimAnnounce announceHash, none)
    else (t.spreadAnnounce env ans data hdr ann iface isNewDest now, none)

def handleAnnouncePacket (iface : Option ℕ) (now : ℕ) : AnnounceNode × Option String :=
  if data.length < 2 then (t, some "packet too small for header")
  else if unannounceable data then (t, none)
  else
    match announceHeader data with
    | .error e => (t, some e)
    | .ok hdr =>
      if t.duplicate (env.announceHash data) now then (t, none)
      else
        match env.verifiedAnnounce ans.cryptoAllowed data hdr with
        | .error e => (t, e)
        | .ok ann => t.claimAnnounce env ans data hdr ann iface now

end Stages

/-! ## What a call does -/

section Calls

variable (env : AnnounceEnv) (ans : AnnounceAnswers) (t : AnnounceNode) (data : Bytes)
  (iface : Option ℕ) (now : ℕ) (destinationHash : Bytes)

lemma hasPath_snd :
    (t.hasPath destinationHash now).2 = (t.livePath destinationHash now).isSome := by
  simp only [hasPath, livePath]
  cases t.paths.lookup (pathMapKey destinationHash) with
  | none => rfl
  | some path =>
    simp only [Option.filter_some]
    split
    next hexpired => simp [hexpired]
    next hlive => simp [hlive]

lemma isNewDest_snd {t t' : AnnounceNode} (h : t'.paths = t.paths) (i : ℕ)
    (destinationHash : Bytes) :
    (t'.isNewDest (some i) destinationHash now).2 = !(t.livePath destinationHash now).isSome := by
  simp [isNewDest, hasPath_snd, livePath, h]

lemma isNewDest_eq :
    ∃ paths pathStates,
      (t.isNewDest iface destinationHash now).1 = { t with paths, pathStates } := by
  cases iface with
  | none => exact ⟨_, _, rfl⟩
  | some i =>
    simp only [isNewDest, hasPath]
    cases t.paths.lookup (pathMapKey destinationHash) with
    | none => exact ⟨_, _, rfl⟩
    | some path =>
      simp only
      split
      · exact ⟨_, _, rfl⟩
      · exact ⟨_, _, rfl⟩

lemma learnPath_eq (hdr : AnnounceHeader) (randomHash : Bytes) (hops : UInt8) :
    ∃ paths pathStates,
      t.learnPath env hdr randomHash iface hops now = { t with paths, pathStates } := by
  cases iface with
  | none => exact ⟨_, _, rfl⟩
  | some i =>
    simp only [learnPath]
    split
    · simp only [updatePathUnlocked]
      cases env.interfaces (env.iface i).name with
      | none | some out => exact ⟨_, _, rfl⟩
    · exact ⟨_, _, rfl⟩

lemma processAnnounceHash_eq (announceHash : Bytes) (isNewDest : Bool) :
    ∃ ingress,
      (t.processAnnounceHash env iface announceHash data isNewDest now).1 = { t with ingress } := by
  cases iface with
  | none => exact ⟨_, rfl⟩
  | some i =>
    simp only [processAnnounceHash]
    cases t.ingress (env.iface i).name with
    | none | some ic => exact ⟨_, rfl⟩

lemma processAnnounceHash_congr {t t' : AnnounceNode} (h : t'.ingress = t.ingress)
    (announceHash : Bytes) (isNewDest : Bool) :
    (t'.processAnnounceHash env iface announceHash data isNewDest now).2 =
      (t.processAnnounceHash env iface announceHash data isNewDest now).2 := by
  cases iface with
  | none => rfl
  | some i =>
    simp only [processAnnounceHash, h]
    cases t.ingress (env.iface i).name with
    | none => rfl
    | some ic => rfl

lemma forwardAnnounce_eq (hdr : AnnounceHeader) (hops : UInt8) :
    ∃ pendingAnnounceJobs,
      t.forwardAnnounce env ans data hdr iface hops now = { t with pendingAnnounceJobs } := by
  have hschedule : ∃ pendingAnnounceJobs,
      t.scheduleAnnounceForward ans data hdr.destinationHash iface hops now =
        { t with pendingAnnounceJobs } := by
    rw [scheduleAnnounceForward]
    split
    · exact ⟨_, rfl⟩
    · exact ⟨_, rfl⟩
  rw [forwardAnnounce]
  split
  · split
    · exact hschedule
    · exact ⟨_, rfl⟩
  · split
    · exact ⟨_, rfl⟩
    · split
      · exact ⟨_, rfl⟩
      · exact hschedule

/-- The ingress control of the interface holds an announce of the destination: it is switched on,
there is a burst, and no path. -/
def Holds (i : ℕ) (destinationHash : Bytes) : Prop :=
  ∃ ic ∈ t.ingress (env.iface i).name, ic.cfg.enabled = true ∧
    ((ic.recordArrivalLocked now).updateBurst now).burstActive = true ∧
      t.livePath destinationHash now = none

def passes (isNewDest : Bool) : Bool :=
  (t.processAnnounceHash env iface (env.announceHash data) data isNewDest now).2

/-- **An announce that is spread** makes its path and tells the handlers in any case; it keeps its
claim if it is let through. -/
lemma spreadAnnounce_spec (hdr : AnnounceHeader) (ann : AnnounceFields) (isNewDest : Bool) :
    let hops := .ofNat (env.announceHops data iface)
    let learned := t.learnPath env hdr ann.randomHash iface hops now
    let t' := t.spreadAnnounce env ans data hdr ann iface isNewDest now
    t'.paths = learned.paths ∧ t'.pathStates = learned.pathStates ∧
      t'.notified = t.notified ++ notices env (env.announceHash data) hdr ann hops ∧
      t'.seenAnnounces =
        if t.passes env data iface now isNewDest then t.seenAnnounces
        else t.seenAnnounces.erase (env.announceHash data) := by
  intro hops learned t'
  obtain ⟨paths, pathStates, hlearned⟩ : ∃ paths pathStates,
      learned = { t with paths, pathStates } :=
    learnPath_eq env t iface now hdr ann.randomHash hops
  let told := learned.notifyAnnounceHandlersFiltered env (env.announceHash data) hdr ann hops
  obtain ⟨ingress, hprocess⟩ :=
    processAnnounceHash_eq env told data iface now (env.announceHash data) isNewDest
  have hpasses : (told.processAnnounceHash env iface (env.announceHash data) data isNewDest now).2 =
      t.passes env data iface now isNewDest := by
    refine processAnnounceHash_congr env data iface now ?_ (env.announceHash data) isNewDest
    show learned.ingress = t.ingress
    rw [hlearned]
  have hspread : t' = if !t.passes env data iface now isNewDest then
      { told with ingress }.unclaimAnnounce (env.announceHash data)
      else
        { told with ingress }.forwardAnnounce env ans data hdr iface hops now := by
    rw [← hpasses, ← hprocess]
    rfl
  obtain ⟨jobs, hforward⟩ :=
    forwardAnnounce_eq env ans { told with ingress } data iface now hdr hops
  rw [hspread, hforward]
  have hseen : learned.seenAnnounces = t.seenAnnounces := by rw [hlearned]
  have hnotified : learned.notified = t.notified := by rw [hlearned]
  cases t.passes env data iface now isNewDest with
  | false =>
    refine ⟨rfl, rfl, ?_, ?_⟩
    · exact congrArg (· ++ _) hnotified
    · exact congrArg (AList.erase _) hseen
  | true =>
    refine ⟨rfl, rfl, ?_, ?_⟩
    · exact congrArg (· ++ _) hnotified
    · exact hseen

/-- The node when it is known whether there is a path: the announce is claimed, and an expired path
is gone. -/
def claimed : AnnounceNode × Bool :=
  (t.rememberSeenAnnounceUnlocked env (env.announceHash data) now).isNewDest iface destinationHash
    now

lemma claimed_eq :
    ∃ paths pathStates, (t.claimed env data iface now destinationHash).1 =
      { t.rememberSeenAnnounceUnlocked env (env.announceHash data) now with paths, pathStates } :=
  isNewDest_eq _ iface now destinationHash

lemma claimed_snd (i : ℕ) (destinationHash : Bytes) :
    (t.claimed env data (some i) now destinationHash).2 =
      !(t.livePath destinationHash now).isSome := by
  have hpaths : (t.rememberSeenAnnounceUnlocked env (env.announceHash data) now).paths = t.paths :=
    rfl
  exact isNewDest_snd now hpaths i destinationHash

/-- **An announce is let through** unless the control of its interface holds it. -/
lemma passes_iff (i : ℕ) (destinationHash : Bytes) :
    (t.claimed env data (some i) now destinationHash).1.passes env data (some i) now
        (t.claimed env data (some i) now destinationHash).2 ↔
      ¬ t.Holds env now i destinationHash := by
  obtain ⟨paths, pathStates, hclaimed⟩ := t.claimed_eq env data (some i) now destinationHash
  have hingress : (t.claimed env data (some i) now destinationHash).1.ingress = t.ingress := by
    rw [hclaimed]
    rfl
  rw [passes, processAnnounceHash_congr env data (some i) now hingress, claimed_snd]
  simp only [processAnnounceHash, Holds]
  cases hic : t.ingress (env.iface i).name with
  | none => simp
  | some ic =>
    simp only [IngressControl.processAnnounceHash, Option.mem_def, Option.some.injEq,
      exists_eq_left']
    cases ic.cfg.enabled with
    | false => simp
    | true =>
      cases ((ic.recordArrivalLocked now).updateBurst now).burstActive with
      | false => simp
      | true => cases t.livePath destinationHash now <;> simp

lemma claimAnnounce_of_pass (hdr : AnnounceHeader) (ann : AnnounceFields)
    (h : ans.rememberIdentity ∧ env.announceHops data iface ≤ maxHops) :
    (t.claimAnnounce env ans data hdr ann iface now).1 =
      (t.claimed env data iface now hdr.destinationHash).1.spreadAnnounce env ans data hdr ann iface
        (t.claimed env data iface now hdr.destinationHash).2 now := by
  simp only [claimAnnounce, h.1, if_neg (not_lt.2 h.2)]
  rfl

lemma claimAnnounce_of_fail (hdr : AnnounceHeader) (ann : AnnounceFields)
    (h : ¬ (ans.rememberIdentity ∧ env.announceHops data iface ≤ maxHops)) :
    (t.claimAnnounce env ans data hdr ann iface now).1.notified = t.notified ∧
      (t.claimAnnounce env ans data hdr ann iface now).1.seenAnnounces =
        (t.rememberSeenAnnounceUnlocked env (env.announceHash data) now).seenAnnounces.erase
          (env.announceHash data) := by
  obtain ⟨paths, pathStates, hclaimed⟩ := t.claimed_eq env data iface now hdr.destinationHash
  cases hknown : ans.rememberIdentity with
  | false =>
    simp only [claimAnnounce, hknown]
    exact ⟨rfl, rfl⟩
  | true =>
    have hhops : maxHops < env.announceHops data iface := by
      by_contra hle
      exact h ⟨hknown, not_lt.1 hle⟩
    have hrefused : (t.claimAnnounce env ans data hdr ann iface now).1 =
        (t.claimed env data iface now hdr.destinationHash).1.unclaimAnnounce
          (env.announceHash data) := by
      simp only [claimAnnounce, hknown, if_pos hhops]
      rfl
    rw [hrefused, hclaimed]
    exact ⟨rfl, rfl⟩

/-- **What a call does.**  The packet is dropped, and if it would pass all checks it has been seen;
or its claim is taken and given up again, since it does not pass the last checks; or it is spread.
-/
lemma handle_cases : let h := env.announceHash data
    let t' := (t.handleAnnouncePacket env ans data iface now).1
    (t' = t ∧ (env.validated ans data iface ≠ none → t.duplicate h now)) ∨
      (env.validated ans data iface = none ∧ t.duplicate h now = false ∧
        t'.notified = t.notified ∧
        t'.seenAnnounces = (t.rememberSeenAnnounceUnlocked env h now).seenAnnounces.erase h) ∨
      ∃ hdr ann, env.validated ans data iface = some (hdr, ann) ∧ t.duplicate h now = false ∧
        t' = (t.claimed env data iface now hdr.destinationHash).1.spreadAnnounce env ans data hdr
          ann iface (t.claimed env data iface now hdr.destinationHash).2 now := by
  intro h t'
  by_cases hshort : data.length < 2
  · have hheader : announceHeader data = .error "packet too small for header" := if_pos hshort
    left
    simp [t', handleAnnouncePacket, AnnounceEnv.validated, hshort, hheader]
  by_cases hdest : unannounceable data
  · left
    simp [t', handleAnnouncePacket, AnnounceEnv.validated, hshort, hdest]
  cases hheader : announceHeader data with
  | error e =>
    left
    simp [t', handleAnnouncePacket, AnnounceEnv.validated, hshort, hdest, hheader]
  | ok hdr =>
    cases hdup : t.duplicate h now with
    | true =>
      simp [t', h, handleAnnouncePacket, hshort, hheader, hdup]
    | false =>
      cases hverified : env.verifiedAnnounce ans.cryptoAllowed data hdr with
      | error e =>
        simp [t', h, handleAnnouncePacket, AnnounceEnv.validated, hshort, hdest, hheader,
          hdup, hverified]
      | ok ann =>
        right
        have hclaim : t' = (t.claimAnnounce env ans data hdr ann iface now).1 := by
          simp [t', h, handleAnnouncePacket, hshort, hdest, hheader, hdup, hverified]
        have hvalidated : env.validated ans data iface =
            if ans.rememberIdentity ∧ env.announceHops data iface ≤ maxHops then
              some (hdr, ann) else none := by
          simp [AnnounceEnv.validated, hdest, hheader, hverified]
        rw [hclaim, hvalidated]
        by_cases hlast : ans.rememberIdentity ∧ env.announceHops data iface ≤ maxHops
        · exact .inr ⟨hdr, ann, if_pos hlast, rfl,
            t.claimAnnounce_of_pass env ans data iface now hdr ann hlast⟩
        · exact .inl ⟨if_neg hlast, rfl,
            t.claimAnnounce_of_fail env ans data iface now hdr ann hlast⟩

end Calls

/-! ### Counting the calls of handlers -/

def told (t : AnnounceNode) (handler : ℕ) (announceHash : Bytes) : ℕ :=
  (t.notified.map fun n => (n.handler, n.announceHash)).count (handler, announceHash)

lemma told_of_notices {env : AnnounceEnv} {t t' : AnnounceNode} {announceHash : Bytes}
    {hops : UInt8} (h : t'.notified = t.notified ++ notices env announceHash hdr ann hops)
    {handler : AnnounceHandler} (hhandler : handler ∈ env.handlers) (h' : Bytes) :
    t'.told handler.id h' = t.told handler.id h' +
      if h' = announceHash ∧ handler.takes hdr.isPathResponse then 1 else 0 := by
  have hnew : (notices env announceHash hdr ann hops).map (fun n => (n.handler, n.announceHash)) =
      (env.handlers.filter (AnnounceHandler.takes hdr.isPathResponse)).map
        fun handler => (handler.id, announceHash) := by
    rw [notices, map_map]
    rfl
  rw [told, h, map_append, count_append, hnew]
  congr 1
  have hinj : ∀ handler' ∈ env.handlers, handler'.id = handler.id → handler' = handler :=
    fun handler' hhandler' heq => inj_on_of_nodup_map env.handlers_nodup hhandler' hhandler heq
  split
  next hboth =>
    obtain ⟨rfl, htakes⟩ := hboth
    refine count_eq_one_of_mem ?_ ?_
    · refine .map_on ?_ ((Nodup.of_map _ env.handlers_nodup).filter _)
      intro a ha b hb hab
      exact inj_on_of_nodup_map env.handlers_nodup (mem_of_mem_filter ha)
        (mem_of_mem_filter hb) (congrArg Prod.fst hab)
    · exact mem_map.2 ⟨handler, mem_filter.2 ⟨hhandler, htakes⟩, rfl⟩
  next hnot =>
    refine count_eq_zero_of_not_mem ?_
    intro hmem
    obtain ⟨handler', hhandler', heq⟩ := mem_map.1 hmem
    obtain ⟨hmem', htakes⟩ := mem_filter.1 hhandler'
    obtain rfl := hinj handler' hmem' (congrArg Prod.fst heq)
    exact hnot ⟨(congrArg Prod.snd heq).symm, htakes⟩

end AnnounceNode

/-! ## Histories -/

/-- A packet that is handled, with the interface it came on, the answers of the surroundings and the
time. -/
structure AnnounceArrival where
  data : Bytes
  iface : Option ℕ
  ans : AnnounceAnswers
  now : ℕ
deriving DecidableEq

/-- What happens to a node: an announce comes in, a held one is released, claims are cleaned up,
forwarding jobs are done, and other code changes the paths. -/
inductive IntakeEvent where
  | receive (a : AnnounceArrival)
  | release (name : Bytes) (ans : AnnounceAnswers) (now : ℕ)
  | cleanupSeenAnnounces (now : ℕ)
  | processDelayedAnnounceJobs (now : ℕ)
  | otherPaths (paths : Map Bytes PathRow)
      (pathStates : Map Bytes PathState)

structure AnnounceHistory where
  node : AnnounceNode
  accepted : List Bytes

namespace AnnounceNode

/-- The node after the part of an event that is not the handling of an announce, and the announce
that is then handled.  A release is one turn of the loop of `releaseHeldAnnounces`. -/
def arriving (env : AnnounceEnv) (t : AnnounceNode) :
    IntakeEvent → AnnounceNode × Option AnnounceArrival
  | .receive a => (t, some a)
  | .release name ans now =>
    match env.interfaces name, t.ingress name with
    | some iface, some ic =>
      match ic.releaseHeldAnnounce now with
      | (ic, some entry) =>
        ({ t with ingress := Function.update t.ingress name (some ic) },
          some ⟨entry.data, some iface, ans, now⟩)
      | (_, none) => (t, none)
    | _, _ => (t, none)
  | .cleanupSeenAnnounces now => (t.cleanupSeenAnnounces env now, none)
  | .processDelayedAnnounceJobs now => (t.processDelayedAnnounceJobs now, none)
  | .otherPaths paths pathStates => ({ t with paths, pathStates }, none)

end AnnounceNode

namespace AnnounceHistory

variable {e : IntakeEvent} {now : ℕ}

open AnnounceNode

section

variable (env : AnnounceEnv)

variable (s : AnnounceHistory)

/-- The announce is handled; it counts as accepted if it passes all checks, seen or not. -/
def handle (a : AnnounceArrival) : AnnounceHistory where
  node := (s.node.handleAnnouncePacket env a.ans a.data a.iface a.now).1
  accepted :=
    match env.validated a.ans a.data a.iface with
    | none => s.accepted
    | some _ => env.announceHash a.data :: s.accepted

def step (e : IntakeEvent) : AnnounceHistory :=
  match s.node.arriving env e with
  | (t, none) => { s with node := t }
  | (t, some a) => handle env { s with node := t } a

def new (ingress : Bytes → Option (IngressControl Bytes Bytes)) : AnnounceHistory where
  node := ⟨∅, ∅, ∅, ingress, [], []⟩
  accepted := []

/-- Each handler has been told exactly once of each accepted announce. -/
def ExactlyOnce : Prop :=
  ∀ h ∈ s.accepted, ∀ handler ∈ env.handlers, s.node.told handler.id h = 1

/-- If the announce passes all checks and is not claimed, it is new, and every handler takes it. -/
def newToAll (a : AnnounceArrival) : Prop :=
  ∀ hdr ann, env.validated a.ans a.data a.iface = some (hdr, ann) →
    s.node.duplicate (env.announceHash a.data) a.now = false →
      ∀ handler ∈ env.handlers,
        handler.takes hdr.isPathResponse = true ↔ env.announceHash a.data ∉ s.accepted

def tellsOnce (e : IntakeEvent) : Prop :=
  match s.node.arriving env e with
  | (_, none) => True
  | (t, some a) => newToAll env { s with node := t } a

end

/-! ### One step -/

section Step

variable {env : AnnounceEnv} {s s' : AnnounceHistory} {t : AnnounceNode} {announceHash : Bytes}
  {x : Bytes}

/-- The invariant.  Whatever is claimed or told has been accepted. -/
structure Inv (env : AnnounceEnv) (s : AnnounceHistory) : Prop where
  once : ExactlyOnce env s
  claimed : ∀ h ∈ s.node.seenAnnounces, h ∈ s.accepted
  told : ∀ n ∈ s.node.notified, n.announceHash ∈ s.accepted

lemma Inv.init (env : AnnounceEnv) (ingress : Bytes → Option (IngressControl Bytes Bytes)) :
    Inv env (new ingress) where
  once := by
    intro h hh
    cases hh
  claimed := by
    intro h hh
    cases hh
  told := by
    intro n hn
    cases hn

/-- Where nobody is told, no claim is taken and nothing is accepted that was not before, the
invariant is kept. -/
lemma Inv.mono (h : Inv env s) (hnotified : s'.node.notified = s.node.notified)
    (hclaims : ∀ x ∈ s'.node.seenAnnounces, x ∈ s.node.seenAnnounces)
    (haccepted : ∀ x, x ∈ s'.accepted ↔ x ∈ s.accepted) : Inv env s' where
  once := by
    intro x hx handler hhandler
    rw [AnnounceNode.told, hnotified]
    exact h.once x ((haccepted x).1 hx) handler hhandler
  claimed := by
    intro x hx
    exact (haccepted x).2 (h.claimed x (hclaims x hx))
  told := by
    intro n hn
    refine (haccepted _).2 (h.told n ?_)
    rw [← hnotified]
    exact hn

lemma mem_evict (hx : x ∈ (t.evictSeenAnnouncesUnlocked env).seenAnnounces) :
    x ∈ t.seenAnnounces := by
  rw [← AList.lookup_isSome] at hx ⊢
  change ((Table.eraseAll t.seenAnnounces _).lookup x).isSome at hx
  rw [Table.lookup_eraseAll] at hx
  split at hx
  · cases hx
  · exact hx

lemma mem_remember (hx : x ∈ (t.rememberSeenAnnounceUnlocked env announceHash now).seenAnnounces) :
    x = announceHash ∨ x ∈ t.seenAnnounces :=
  (AList.mem_insert _).1 (mem_evict hx)

lemma mem_of_duplicate (hdup : t.duplicate x now) : x ∈ t.seenAnnounces := by
  rw [← AList.lookup_isSome]
  cases hlookup : t.seenAnnounces.lookup x with
  | none => simp [duplicate, hlookup] at hdup
  | some last => rfl

lemma arriving_cases (env : AnnounceEnv) (t : AnnounceNode) (e : IntakeEvent) :
    let t' := (t.arriving env e).1
    t'.notified = t.notified ∧ (t'.seenAnnounces = t.seenAnnounces ∨
      ∃ now, e = .cleanupSeenAnnounces now ∧ t' = t.cleanupSeenAnnounces env now) := by
  cases e with
  | receive a
  | processDelayedAnnounceJobs now | otherPaths paths pathStates => exact ⟨rfl, .inl rfl⟩
  | release name ans now =>
    simp only [arriving]
    split
    · split <;> exact ⟨rfl, .inl rfl⟩
    · exact ⟨rfl, .inl rfl⟩
  | cleanupSeenAnnounces now => exact ⟨rfl, .inr ⟨now, rfl, rfl⟩⟩

lemma Inv.arriving (h : Inv env s) (e : IntakeEvent) :
    Inv env { s with node := (s.node.arriving env e).1 } := by
  obtain ⟨hnotified, hseen⟩ := arriving_cases env s.node e
  refine h.mono hnotified (fun x hx => ?_) fun _ => .rfl
  rcases hseen with hsame | ⟨now, -, hclean⟩
  · exact hsame ▸ hx
  · rw [hclean] at hx
    exact (filter_sublist.map Sigma.fst).subset (mem_evict hx)

lemma Inv.told_eq_zero (h : Inv env s) (hnew : announceHash ∉ s.accepted) (handler : ℕ) :
    s.node.told handler announceHash = 0 := by
  refine count_eq_zero_of_not_mem ?_
  intro hmem
  obtain ⟨n, hn, heq⟩ := mem_map.1 hmem
  have hhash : n.announceHash = announceHash := congrArg Prod.snd heq
  exact hnew (hhash ▸ h.told n hn)

/-- **After an announce was spread**, every handler has been told once of every announce exactly if
the handlers take it that have not been told of it, and no others. -/
lemma Inv.once_iff (h : Inv env s) {hops : UInt8}
    (hnotified : s'.node.notified = s.node.notified ++ notices env announceHash hdr ann hops)
    (haccepted : s'.accepted = announceHash :: s.accepted) : ExactlyOnce env s' ↔
      ∀ handler ∈ env.handlers, handler.takes hdr.isPathResponse ↔ announceHash ∉ s.accepted := by
  have htold : ∀ handler ∈ env.handlers, s.node.told handler.id announceHash =
      if announceHash ∈ s.accepted then 1 else 0 := by
    intro handler hhandler
    split
    next hold => exact h.once announceHash hold handler hhandler
    next hnew => exact h.told_eq_zero hnew handler.id
  constructor
  · intro honce handler hhandler
    have hone := honce announceHash (haccepted ▸ mem_cons_self) handler hhandler
    rw [told_of_notices hnotified hhandler] at hone
    by_cases hold : announceHash ∈ s.accepted <;>
      by_cases htakes : handler.takes hdr.isPathResponse <;> simp_all
  · intro htakes x hx handler hhandler
    rw [haccepted] at hx
    rw [told_of_notices hnotified hhandler]
    by_cases heq : x = announceHash
    · by_cases hold : x ∈ s.accepted <;> simp_all
    · have hold : x ∈ s.accepted := (mem_cons.1 hx).resolve_left heq
      rw [h.once x hold handler hhandler, if_neg (fun hboth => heq hboth.1)]

section Handle

variable {a : AnnounceArrival}

lemma handle_accepted_of_none (s : AnnounceHistory)
    (h : env.validated a.ans a.data a.iface = none) : (handle env s a).accepted = s.accepted := by
  simp [handle, h]

lemma handle_accepted_of_some (s : AnnounceHistory) {ann : AnnounceHeader × AnnounceFields}
    (h : env.validated a.ans a.data a.iface = some ann) :
    (handle env s a).accepted = env.announceHash a.data :: s.accepted := by
  simp [handle, h]

/-- An announce that was dropped although it passes all checks is claimed. -/
lemma mem_accepted_of_seen (h : env.validated a.ans a.data a.iface ≠ none →
      s.node.duplicate (env.announceHash a.data) a.now)
    (hx : x ∈ (handle env s a).accepted) : x ∈ s.accepted ∨ x ∈ s.node.seenAnnounces := by
  cases hval : env.validated a.ans a.data a.iface with
  | none =>
    rw [handle_accepted_of_none s hval] at hx
    exact .inl hx
  | some ann =>
    rw [handle_accepted_of_some s hval, mem_cons] at hx
    rcases hx with rfl | hx
    · exact .inr (mem_of_duplicate (h (by simp [hval])))
    · exact .inl hx

lemma accepted_subset (env : AnnounceEnv) (s : AnnounceHistory) (a : AnnounceArrival) :
    s.accepted ⊆ (handle env s a).accepted := by
  unfold handle
  split
  · exact Subset.refl _
  · exact subset_cons_self _ _

lemma spread_frame (env : AnnounceEnv) (t : AnnounceNode) (ans : AnnounceAnswers) (data : Bytes)
    (iface : Option ℕ) (now : ℕ) (hdr : AnnounceHeader) (ann : AnnounceFields) :
    let claimed := t.claimed env data iface now hdr.destinationHash
    let t' := claimed.1.spreadAnnounce env ans data hdr ann iface claimed.2 now
    t'.notified = t.notified ++ notices env (env.announceHash data) hdr ann
        (.ofNat (env.announceHops data iface)) ∧
      ∀ x ∈ t'.seenAnnounces, x = env.announceHash data ∨ x ∈ t.seenAnnounces := by
  intro claimed t'
  obtain ⟨paths, pathStates, hclaimed⟩ := t.claimed_eq env data iface now hdr.destinationHash
  obtain ⟨-, -, hnotified, hseen⟩ :=
    claimed.1.spreadAnnounce_spec env ans data iface now hdr ann claimed.2
  have hclaims : claimed.1.seenAnnounces =
      (t.rememberSeenAnnounceUnlocked env (env.announceHash data) now).seenAnnounces := by
    rw [hclaimed]
  constructor
  · rw [hnotified, hclaimed]
    rfl
  · intro x hx
    apply mem_remember
    rw [← hclaims]
    rw [hseen] at hx
    split at hx
    · exact hx
    · exact (AList.mem_erase.1 hx).2

/-- **An announce that is new to all handlers** keeps the invariant. -/
lemma Inv.handle (h : Inv env s) (hnew : newToAll env s a) : Inv env (handle env s a) := by
  rcases s.node.handle_cases env a.ans a.data a.iface a.now with ⟨hsame, hseen⟩ |
    ⟨hnone, -, hnotified, hclaims⟩ | ⟨hdr, ann, hsome, hdup, hspread⟩
  · have hnode : (AnnounceHistory.handle env s a).node = s.node := hsame
    refine h.mono ?_ ?_ ?_
    · rw [hnode]
    · rw [hnode]
      exact fun _ hx => hx
    · intro x
      refine ⟨fun hx => ?_, fun hx => accepted_subset env s a hx⟩
      exact (mem_accepted_of_seen hseen hx).elim id (h.claimed x)
  · refine h.mono hnotified ?_ ?_
    · intro x hx
      have hx' := AList.mem_erase.1 (hclaims ▸ hx)
      exact (mem_remember hx'.2).resolve_left hx'.1
    · intro x
      rw [handle_accepted_of_none s hnone]
  · obtain ⟨hnotified, hclaims⟩ := spread_frame env s.node a.ans a.data a.iface a.now hdr ann
    rw [← hspread] at hnotified hclaims
    have haccepted := handle_accepted_of_some s hsome
    constructor
    · exact (h.once_iff hnotified haccepted).2 (hnew hdr ann hsome hdup)
    · intro x hx
      rw [haccepted, mem_cons]
      exact (hclaims x hx).imp_right (h.claimed x)
    · intro n hn
      rw [haccepted, mem_cons]
      rcases mem_append.1 (hnotified ▸ hn) with hn | hn
      · exact .inr (h.told n hn)
      · obtain ⟨handler, -, rfl⟩ := mem_map.1 hn
        exact .inl rfl

lemma Inv.not_once (h : Inv env s) (hnew : ¬ newToAll env s a) :
    ¬ ExactlyOnce env (.handle env s a) := by
  simp only [newToAll, not_forall] at hnew
  obtain ⟨hdr, ann, hsome, hdup, handler, hhandler, hnot⟩ := hnew
  rcases s.node.handle_cases env a.ans a.data a.iface a.now with ⟨-, hseen⟩ |
    ⟨hnone, -⟩ | ⟨hdr', ann', hsome', -, hspread⟩
  · rw [hseen (by simp [hsome])] at hdup
    cases hdup
  · rw [hnone] at hsome
    cases hsome
  · rw [hsome'] at hsome
    cases hsome
    obtain ⟨hnotified, -⟩ := spread_frame env s.node a.ans a.data a.iface a.now hdr ann
    rw [← hspread] at hnotified
    intro honce
    have haccepted := handle_accepted_of_some s hsome'
    exact hnot ((h.once_iff hnotified haccepted).1 honce handler hhandler)

end Handle

lemma Inv.step (h : Inv env s) (hnew : tellsOnce env s e) : Inv env (step env s e) := by
  have harriving := h.arriving e
  unfold AnnounceHistory.step
  unfold tellsOnce at hnew
  rcases heq : s.node.arriving env e with ⟨t, _ | a⟩
  · rw [heq] at harriving
    exact harriving
  · rw [heq] at harriving hnew
    exact harriving.handle hnew

lemma Inv.step_not_once (h : Inv env s) (hnew : ¬ tellsOnce env s e) :
    ¬ ExactlyOnce env (.step env s e) := by
  have harriving := h.arriving e
  unfold AnnounceHistory.step
  unfold tellsOnce at hnew
  rcases heq : s.node.arriving env e with ⟨t, _ | a⟩
  · rw [heq] at hnew
    exact absurd trivial hnew
  · rw [heq] at harriving hnew
    exact harriving.not_once hnew

end Step

/-! ### Calm runs -/

section Calm

variable {env : AnnounceEnv} {s : AnnounceHistory} {t : AnnounceNode} {a : AnnounceArrival}

def Young (t : AnnounceNode) (now : ℕ) : Prop :=
  ∀ h last, t.seenAnnounces.lookup h = some last → now - last < seenAnnounceTTL

/-- Nothing makes a node give up a claim: none has become old, there is room for one more, and the
control of the interface does not hold the announce.  Handlers that do not want answers to path
requests get none. -/
structure CalmArrival (env : AnnounceEnv) (t : AnnounceNode) (a : AnnounceArrival) : Prop where
  young : Young t a.now
  room : t.seenAnnounces.entries.length < defaultMaxSeenAnnounces
  unheld : ∀ hdr ann, env.validated a.ans a.data a.iface = some (hdr, ann) →
    ∀ i ∈ a.iface, ¬ t.Holds env a.now i hdr.destinationHash
  taken : ∀ hdr ann, env.validated a.ans a.data a.iface = some (hdr, ann) →
    hdr.isPathResponse = true → ∀ handler ∈ env.handlers, handler.receivePathResponses = true

def calm (env : AnnounceEnv) (s : AnnounceHistory) (e : IntakeEvent) : Prop :=
  (∀ now, e = .cleanupSeenAnnounces now → Young s.node now) ∧
    ∀ t a, s.node.arriving env e = (t, some a) → CalmArrival env t a

/-- In a calm run the claims are all kept. -/
structure Kept (env : AnnounceEnv) (s : AnnounceHistory) : Prop extends Inv env s where
  kept : ∀ h ∈ s.accepted, h ∈ s.node.seenAnnounces
  bounded : s.node.seenAnnounces.entries.length ≤ defaultMaxSeenAnnounces

lemma duplicate_of_young (hyoung : Young t now) {h : Bytes} (hmem : h ∈ t.seenAnnounces) :
    t.duplicate h now := by
  obtain ⟨last, hlast⟩ := Option.isSome_iff_exists.1 (AList.lookup_isSome.2 hmem)
  simp only [duplicate, hlast, Option.any_some, decide_eq_true_eq]
  exact hyoung h last hlast

lemma evict_of_le (h : t.seenAnnounces.entries.length ≤ defaultMaxSeenAnnounces) :
    t.evictSeenAnnouncesUnlocked env = t := by
  rw [evictSeenAnnouncesUnlocked, Table.surplus_of_le (.inr h)]
  rfl

lemma remember_of_room (env : AnnounceEnv)
    (h : t.seenAnnounces.entries.length < defaultMaxSeenAnnounces)
    (announceHash : Bytes) (now : ℕ) :
    t.rememberSeenAnnounceUnlocked env announceHash now =
      { t with seenAnnounces := t.seenAnnounces.insert announceHash now } := by
  rw [rememberSeenAnnounceUnlocked, evict_of_le]
  exact (Table.length_insert_le _ _ _).trans h

lemma cleanup_of_young (hyoung : Young t now)
    (h : t.seenAnnounces.entries.length ≤ defaultMaxSeenAnnounces) :
    t.cleanupSeenAnnounces env now = t := by
  have hkeep : Table.keep (fun _ last => !decide (last + seenAnnounceTTL < now)) t.seenAnnounces =
      t.seenAnnounces := by
    apply AList.ext
    refine filter_eq_self.2 fun c hc => ?_
    have hage := hyoung c.1 c.2 (Table.lookup_eq_some_iff.2 hc)
    simp only [Bool.not_eq_true', decide_eq_false_iff_not]
    omega
  rw [cleanupSeenAnnounces, hkeep]
  exact evict_of_le h

lemma CalmArrival.passes (h : CalmArrival env t a)
    (hval : env.validated a.ans a.data a.iface = some (hdr, ann)) :
    let claimed := t.claimed env a.data a.iface a.now hdr.destinationHash
    claimed.1.passes env a.data a.iface a.now claimed.2 := by
  have hunheld := h.unheld hdr ann hval
  cases hiface : a.iface with
  | none => rfl
  | some i => exact (t.passes_iff env a.data a.now i hdr.destinationHash).2 (hunheld i hiface)

lemma Kept.newToAll (h : Kept env s) (hcalm : CalmArrival env s.node a) : newToAll env s a := by
  intro hdr ann hval hdup handler hhandler
  have hnew : env.announceHash a.data ∉ s.accepted := by
    intro hold
    rw [duplicate_of_young hcalm.young (h.kept _ hold)] at hdup
    cases hdup
  refine iff_of_true ?_ hnew
  cases hresponse : hdr.isPathResponse with
  | false => rfl
  | true => exact hcalm.taken hdr ann hval hresponse handler hhandler

lemma Kept.claims (h : Kept env s) (hcalm : CalmArrival env s.node a) :
    (∀ x ∈ (handle env s a).accepted,
        x ∈ (handle env s a).node.seenAnnounces) ∧
      (handle env s a).node.seenAnnounces.entries.length ≤
        defaultMaxSeenAnnounces := by
  have hremember := remember_of_room env hcalm.room (env.announceHash a.data) a.now
  rcases s.node.handle_cases env a.ans a.data a.iface a.now with ⟨hsame, hseen⟩ |
    ⟨hnone, hdup, -, hclaims⟩ | ⟨hdr, ann, hsome, hdup, hspread⟩
  · have hnode : (handle env s a).node = s.node := hsame
    rw [hnode]
    refine ⟨?_, h.bounded⟩
    intro x hx
    exact (mem_accepted_of_seen hseen hx).elim (h.kept x) id
  · have hnotmem : env.announceHash a.data ∉ s.node.seenAnnounces := by
      intro hmem
      rw [duplicate_of_young hcalm.young hmem] at hdup
      cases hdup
    have hback : (handle env s a).node.seenAnnounces = s.node.seenAnnounces := by
      refine hclaims.trans ?_
      rw [hremember]
      rw [Table.erase_insert, Table.erase_of_not_mem hnotmem]
    rw [hback, handle_accepted_of_none s hnone]
    exact ⟨h.kept, h.bounded⟩
  · obtain ⟨paths, pathStates, hclaimed⟩ :=
      s.node.claimed_eq env a.data a.iface a.now hdr.destinationHash
    obtain ⟨-, -, -, hseen⟩ := spreadAnnounce_spec env a.ans
      (s.node.claimed env a.data a.iface a.now hdr.destinationHash).1 a.data a.iface a.now hdr ann
      (s.node.claimed env a.data a.iface a.now hdr.destinationHash).2
    rw [← hspread, hcalm.passes hsome, hclaimed, hremember] at hseen
    rw [show (handle env s a).node.seenAnnounces = _ from hseen]
    refine ⟨?_, (Table.length_insert_le _ _ _).trans hcalm.room⟩
    intro x hx
    rw [handle_accepted_of_some s hsome, mem_cons] at hx
    exact (AList.mem_insert _).2 (hx.imp_right (h.kept x))

lemma Kept.arriving (h : Kept env s) (hcalm : calm env s e) :
    Kept env { s with node := (s.node.arriving env e).1 } := by
  have hseen : (s.node.arriving env e).1.seenAnnounces = s.node.seenAnnounces := by
    rcases (arriving_cases env s.node e).2 with hsame | ⟨now, he, hclean⟩
    · exact hsame
    · rw [hclean, cleanup_of_young (hcalm.1 now he) h.bounded]
  refine ⟨h.toInv.arriving e, ?_, ?_⟩
  · rw [hseen]
    exact h.kept
  · rw [hseen]
    exact h.bounded

lemma Kept.step (h : Kept env s) (hcalm : calm env s e) : Kept env (step env s e) := by
  have harriving := h.arriving hcalm
  have hcalm' := hcalm.2
  unfold AnnounceHistory.step
  rcases heq : s.node.arriving env e with ⟨t, _ | a⟩
  · rw [heq] at harriving
    exact harriving
  · rw [heq] at harriving
    have hcalmArrival := hcalm' t a heq
    obtain ⟨hkept, hbounded⟩ := harriving.claims hcalmArrival
    exact ⟨harriving.toInv.handle (harriving.newToAll hcalmArrival), hkept, hbounded⟩

end Calm

/-! ### Every run -/

/-- **Announce handlers.**  In a run of a node each handler is told exactly once of each accepted
announce throughout, exactly if an announce that passes all checks and is not claimed is always one
that has not been accepted before and that every handler takes.  This is so in a calm run. -/
theorem told_once_iff (env : AnnounceEnv)
    (ingress : Bytes → Option (IngressControl Bytes Bytes)) (es : List IntakeEvent) :
    (Run.Always (step env) (ExactlyOnce env) (new ingress) es ↔
        Run.Along (step env) (tellsOnce env) (new ingress) es) ∧
      (Run.Along (step env) (calm env) (new ingress) es →
        Run.Always (step env) (ExactlyOnce env) (new ingress) es) := by
  constructor
  · refine Run.always_iff_along (I := Inv env) ?_ ?_ ?_ (.init env ingress)
    · exact fun _ h => h.once
    · exact fun _ _ h hnew => h.step hnew
    · exact fun _ _ h hnew => h.step_not_once hnew
  · intro hcalm
    have hkept : Kept env (new ingress) := by
      refine ⟨.init env ingress, ?_, Nat.zero_le _⟩
      intro h hh
      cases hh
    refine (Run.always_of_along ?_ hkept hcalm).mono fun _ h => h.once
    exact fun _ _ h hstep => h.step hstep

/-! ### An announce that is held and released -/

/-- A node with one interface, which has the default ingress control, and one handler. -/
def oneHandler : AnnounceEnv where
  sha := .padded
  verify := fun _ _ _ => true
  blackholed := fun _ => false
  iface := fun _ => ⟨[0x61], false, .full, 0⟩
  interfaces := fun name => if name = [0x61] then some 0 else none
  penalty := fun _ => 0
  handlers := [⟨0, true⟩]
  handlers_nodup := by decide
  transportEnabled := true
  maxInMemoryPaths := 0
  rank := fun _ => 0

/-- The announce of the destination whose name begins with `id`, by the identity of zeros. -/
def announceOf (id : UInt8) : Bytes :=
  let nameHash := id :: replicate 9 0
  [0x01, 0] ++ nameHash ++ replicate 6 0 ++ [0] ++ replicate 64 0 ++ nameHash ++
    [0, 0, 0, 0, 0, 0, 0, 0, 0, 5] ++ replicate 64 0

def allAllowed : AnnounceAnswers := ⟨true, true, true, 0⟩

def receiveAt (now : ℕ) (id : UInt8) : IntakeEvent :=
  .receive ⟨announceOf id, some 0, allAllowed, now⟩

lemma calm_receive {s : AnnounceHistory} (id : UInt8)
    (hyoung : ∀ c ∈ s.node.seenAnnounces.entries, now - c.2 < seenAnnounceTTL)
    (hroom : s.node.seenAnnounces.entries.length < defaultMaxSeenAnnounces)
    (hingress : (s.node.ingress [0x61]).isNone) : calm oneHandler s (receiveAt now id) := by
  refine ⟨fun _ he => (by cases he), ?_⟩
  rintro t a ⟨⟩
  refine ⟨?_, hroom, ?_, fun _ _ _ _ => by decide⟩
  · intro h last hlast
    exact hyoung ⟨h, last⟩ (Table.lookup_eq_some_iff.1 hlast)
  · rintro _ _ _ _ - ⟨ic, hic, -⟩
    cases (Option.isNone_iff_eq_none.1 hingress).symm.trans hic

/-- Two announces and a copy of the first, without an ingress control. -/
theorem told_once_of_calm :
    let es := [receiveAt 0 1, receiveAt second 1, receiveAt (2 * second) 2]
    (Run.exec (step oneHandler) (new fun _ => none) es).accepted.length = 3 ∧
      Run.Always (step oneHandler) (ExactlyOnce oneHandler) (new fun _ => none) es := by
  refine ⟨by decide +kernel, (told_once_iff oneHandler (fun _ => none) _).2 ⟨?_, ?_, ?_, trivial⟩⟩
  all_goals exact calm_receive _ (by decide +kernel) (by decide +kernel) (by decide +kernel)

/-- Eight announces in eight milliseconds, the last of which is held; two more, after which the
burst is over; and the release. -/
def heldAndReleased : List IntakeEvent :=
  (range 8).map (fun i => receiveAt (i * 10 ^ 6) (.ofNat i)) ++
    [receiveAt (100 * second) 8, receiveAt (200 * second) 9,
      .release [0x61] allAllowed (500 * second)]

def ingressOnA (name : Bytes) : Option (IngressControl Bytes Bytes) :=
  if name = [0x61] then some (.newIngressControlWith newIngressControlConfig 0) else none

/-- **The announce that was held is told twice**, the second time eight minutes after the first. -/
theorem held_announce_told_twice :
    let s := Run.exec (step oneHandler) (new ingressOnA) heldAndReleased
    oneHandler.announceHash (announceOf 7) ∈ s.accepted ∧
      s.node.told 0 (oneHandler.announceHash (announceOf 7)) = 2 ∧ ¬ ExactlyOnce oneHandler s := by
  intro s
  obtain ⟨hmem, htwice⟩ : oneHandler.announceHash (announceOf 7) ∈ s.accepted ∧
      s.node.told 0 (oneHandler.announceHash (announceOf 7)) = 2 := by decide +kernel
  refine ⟨hmem, htwice, ?_⟩
  intro honce
  have hone := honce _ hmem ⟨0, true⟩ (by decide)
  rw [htwice] at hone
  exact absurd hone (by decide)

end AnnounceHistory

end Reticulum

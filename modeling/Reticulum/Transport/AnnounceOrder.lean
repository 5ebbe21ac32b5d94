import Reticulum.Core.Fallible
import Reticulum.Transport.AnnounceIntake

/-!
# Copies of an announce on two interfaces

Of two copies of an announce with the same number of hops the one on the interface of higher
**affinity** is to make the path, whichever comes first: this is what the tie-break of
`shouldUpdateAnnouncePath` is for.  But the first copy has claimed the announce, so that within an
hour the second one is dropped before its affinity is looked at: **`path_on_higher_iff`**.
-/

namespace Reticulum

open Rate.Constants Wire.Constants Option

/-! ## What the hash of an announce covers -/

def announceDest (data : Bytes) : Bytes := (announceHashed data).take addrHashSize

def announceRandom (data : Bytes) : Bytes :=
  (((announceHashed data).drop (addrHashSize + contextByteLen)).drop 74).take 10

lemma announceDest_congr {data data' : Bytes} (h : announceHashed data' = announceHashed data) :
    announceDest data' = announceDest data := by
  rw [announceDest, h, announceDest]

lemma announceRandom_congr {data data' : Bytes} (h : announceHashed data' = announceHashed data) :
    announceRandom data' = announceRandom data := by
  rw [announceRandom, h, announceRandom]

lemma AnnounceEnv.announceHash_congr (env : AnnounceEnv) {data data' : Bytes}
    (h : announceHashed data' = announceHashed data) :
    env.announceHash data' = env.announceHash data := by
  rw [announceHash, h, announceHash]

lemma announceFields_random {ratchet : Bool} {payload : Bytes} {ann : AnnounceFields}
    (h : announceFields ratchet payload = .ok ann) :
    ann.randomHash = (payload.drop 74).take 10 ∧ ann.randomHash.length = 10 := by
  simp only [announceFields] at h
  split at h
  · cases h
  next hlong =>
    split at h
    · cases h
    · obtain rfl := Except.ok.inj h
      refine ⟨rfl, ?_⟩
      simp only [List.length_take, List.length_drop]
      omega

namespace AnnounceEnv

variable {env : AnnounceEnv} {ans : AnnounceAnswers} {data : Bytes} {iface : Option ℕ}
  {hdr : AnnounceHeader} {ann : AnnounceFields}

lemma verifiedAnnounce_fields {cryptoAllowed : Bool}
    (h : env.verifiedAnnounce cryptoAllowed data hdr = .ok ann) :
    announceFields (ratcheted data) hdr.payload = .ok ann := by
  rw [verifiedAnnounce] at h
  cases hfields : announceFields (ratcheted data) hdr.payload with
  | error e =>
    rw [hfields] at h
    cases h
  | ok ann' =>
    rw [hfields] at h
    simp only [Fallible.ite_error_eq_ok] at h
    exact congrArg Except.ok (Except.ok.inj h.2.2.2.2)

lemma validated_reads (h : env.validated ans data iface = some (hdr, ann)) :
    hdr.destinationHash = announceDest data ∧ ann.randomHash = announceRandom data ∧
      (announceRandom data).length = 10 := by
  simp only [validated] at h
  split at h
  · cases h
  · cases hheader : announceHeader data with
    | error e => simp [hheader] at h
    | ok hdr' =>
      cases hverified : env.verifiedAnnounce ans.cryptoAllowed data hdr' with
      | error e => simp [hheader, hverified] at h
      | ok ann' =>
        simp only [hheader, hverified, ite_none_right_eq_some, some.injEq, Prod.mk.injEq] at h
        obtain ⟨-, rfl, rfl⟩ := h
        obtain ⟨hdest, hpayload⟩ := announceHeader_hashed hheader
        obtain ⟨hrandom, hlen⟩ := announceFields_random (verifiedAnnounce_fields hverified)
        have hsame : ann'.randomHash = announceRandom data := by
          rw [hrandom, hpayload]
          rfl
        exact ⟨hdest, hsame, hsame ▸ hlen⟩

end AnnounceEnv

/-! ## One copy -/

structure AnnounceCopy where
  iface : ℕ
  data : Bytes
  ans : AnnounceAnswers
deriving DecidableEq

namespace AnnounceCopy

variable (env : AnnounceEnv) (c : AnnounceCopy)

structure Valid : Prop where
  validated : (env.validated c.ans c.data (some c.iface)).isSome = true
  registered : env.interfaces (env.iface c.iface).name = some c.iface

def hops : ℕ := env.announceHops c.data (some c.iface)

def affinity : ℤ := env.pathingAffinity (some c.iface)

end AnnounceCopy

namespace AnnounceNode

variable {row : PathRow}

section Copy

variable (env : AnnounceEnv) (t : AnnounceNode) (c : AnnounceCopy) (now : ℕ)

def receive : AnnounceNode := (t.handleAnnouncePacket env c.ans c.data (some c.iface) now).1

def RoomFor (key : Bytes) : Prop :=
  env.maxInMemoryPaths = 0 ∨ (t.paths.erase key).entries.length < env.maxInMemoryPaths

/-- The announce is new to the node: it is not claimed, and a path there may be is of older
announces.  Both tables have room for it. -/
structure Fresh (data : Bytes) : Prop where
  unclaimed : t.duplicate (env.announceHash data) now = false
  newer : ∀ row, t.livePath (announceDest data) now = some row →
    0 < announceEmitted (announceRandom data) ∧
      ∀ blob ∈ row.randomBlobs, announceEmitted blob < announceEmitted (announceRandom data)
  roomForClaim : t.seenAnnounces.entries.length < defaultMaxSeenAnnounces
  roomForPath : t.RoomFor env (pathMapKey (announceDest data))

def chosen (existing : Option PathRow) (nextHop : Bytes) (pathUnresponsive : Bool) :
    Option PathRow :=
  let hops := .ofNat (c.hops env)
  if shouldUpdateAnnouncePath (existing.map PathRow.toPath)
      (announcePathInput env existing c.iface hops (announceRandom c.data) now)
      pathUnresponsive then
    some (.announced existing nextHop c.iface hops (announceRandom c.data)
      (now + env.pathLifetimeFor c.iface) now)
  else existing

variable {env t c now}

lemma isNewDest_paths (t : AnnounceNode) (now i : ℕ) (dest : Bytes) :
    (t.isNewDest (some i) dest now).1.paths.lookup (pathMapKey dest) = t.livePath dest now ∧
      (t.isNewDest (some i) dest now).1.paths.erase (pathMapKey dest) =
        t.paths.erase (pathMapKey dest) := by
  simp only [isNewDest, hasPath, livePath]
  cases hlookup : t.paths.lookup (pathMapKey dest) with
  | none => exact ⟨hlookup, rfl⟩
  | some path =>
    simp only [filter_some]
    split
    next hexpired =>
      simp only [hexpired]
      refine ⟨AList.lookup_erase _ _, Table.erase_of_not_mem ?_⟩
      exact fun hmem => (AList.mem_erase.1 hmem).1 rfl
    next hlive =>
      simp only [hlive]
      exact ⟨hlookup, trivial⟩

lemma evictPaths_of_room {key : Bytes} (h : t.RoomFor env key) :
    ({ t with
        paths := t.paths.insert key row
        pathStates := t.pathStates.insert key .unknown } : AnnounceNode).evictPathsIfNeededUnlocked
        env =
      { t with
        paths := t.paths.insert key row
        pathStates := t.pathStates.insert key .unknown } := by
  simp only [evictPathsIfNeededUnlocked]
  rw [Table.surplus_of_le]
  · rfl
  · refine h.imp_right fun hlt => ?_
    exact hlt

lemma learnPath_paths (now : ℕ) {hdr : AnnounceHeader} {randomHash : Bytes}
    (hregistered : env.interfaces (env.iface c.iface).name = some c.iface)
    (hdest : hdr.destinationHash = announceDest c.data)
    (hrandom : randomHash = announceRandom c.data)
    (hroom : t.RoomFor env (pathMapKey (announceDest c.data))) :
    let key := pathMapKey (announceDest c.data)
    let t' := t.learnPath env hdr randomHash (some c.iface) (.ofNat (c.hops env)) now
    (∃ nextHop unresponsive,
        t'.paths.lookup key = chosen env c now (t.paths.lookup key) nextHop unresponsive) ∧
      t'.paths.erase key = t.paths.erase key := by
  intro key t'
  let unresponsive := decide (t.pathStates.lookup key = some .unresponsive)
  simp only [t', learnPath, updatePathUnlocked, hregistered, hrandom]
  rw [hdest, evictPaths_of_room hroom]
  split
  next htaken =>
    constructor
    · refine ⟨if hdr.receivedFrom = [] then announceDest c.data else hdr.receivedFrom,
        unresponsive, ?_⟩
      rw [chosen, if_pos htaken]
      exact AList.lookup_insert t.paths
    · exact Table.erase_insert t.paths key _
  next hrefused =>
    refine ⟨⟨[], unresponsive, ?_⟩, rfl⟩
    rw [chosen, if_neg hrefused]

lemma receive_of_duplicate (h : t.duplicate (env.announceHash c.data) now) :
    t.receive env c now = t := by
  rcases t.handle_cases env c.ans c.data (some c.iface) now with ⟨hsame, -⟩ | ⟨-, hdup, -⟩ |
    ⟨hdr, ann, -, hdup, -⟩
  · exact hsame
  · rw [h] at hdup
    cases hdup
  · rw [h] at hdup
    cases hdup

section

variable (hvalid : c.Valid env) (h : t.duplicate (env.announceHash c.data) now = false)
include hvalid h

lemma receive_eq :
    ∃ hdr ann, hdr.destinationHash = announceDest c.data ∧
      ann.randomHash = announceRandom c.data ∧
      t.receive env c now =
        (t.claimed env c.data (some c.iface) now hdr.destinationHash).1.spreadAnnounce env c.ans
          c.data hdr ann (some c.iface)
          (t.claimed env c.data (some c.iface) now hdr.destinationHash).2 now := by
  obtain ⟨⟨hdr, ann⟩, hval⟩ := isSome_iff_exists.1 hvalid.validated
  obtain ⟨hdest, hrandom, -⟩ := AnnounceEnv.validated_reads hval
  rcases t.handle_cases env c.ans c.data (some c.iface) now with ⟨-, hseen⟩ | ⟨hnone, -⟩ |
    ⟨hdr', ann', hval', -, hspread⟩
  · rw [hseen (by rw [hval]; exact some_ne_none _)] at h
    cases h
  · rw [hval] at hnone
    cases hnone
  · rw [hval] at hval'
    cases hval'
    exact ⟨hdr, ann, hdest, hrandom, hspread⟩

/-- **The path after a copy** that is no duplicate. -/
lemma receive_path (hroom : t.RoomFor env (pathMapKey (announceDest c.data))) :
    let key := pathMapKey (announceDest c.data)
    (∃ nextHop unresponsive, (t.receive env c now).paths.lookup key =
        chosen env c now (t.livePath (announceDest c.data) now) nextHop unresponsive) ∧
      (t.receive env c now).paths.erase key = t.paths.erase key := by
  intro key
  obtain ⟨hdr, ann, hdest, hrandom, hreceive⟩ := receive_eq hvalid h
  obtain ⟨hlookup, herase⟩ := isNewDest_paths
    (t.rememberSeenAnnounceUnlocked env (env.announceHash c.data) now) now c.iface
    (announceDest c.data)
  obtain ⟨hpaths, -⟩ := spreadAnnounce_spec env c.ans
    (t.claimed env c.data (some c.iface) now hdr.destinationHash).1 c.data (some c.iface) now hdr
    ann
    (t.claimed env c.data (some c.iface) now hdr.destinationHash).2
  rw [hreceive, hpaths, hdest]
  have hroom' : (t.claimed env c.data (some c.iface) now (announceDest c.data)).1.RoomFor env key :=
    hroom.imp_right fun hlt => (congrArg (fun a => a.entries.length) herase).trans_lt hlt
  obtain ⟨⟨nextHop, unresponsive, hlearned⟩, hrest⟩ :=
    learnPath_paths now hvalid.registered hdest hrandom hroom'
  refine ⟨⟨nextHop, unresponsive, hlearned.trans ?_⟩, hrest.trans herase⟩
  exact congrArg (chosen env c now · nextHop unresponsive) hlookup

/-- **The claim after a copy** that is no duplicate: it is there for an hour, if the copy is not
held. -/
lemma receive_claim (hroom : t.seenAnnounces.entries.length < defaultMaxSeenAnnounces) (later : ℕ) :
    (t.receive env c now).duplicate (env.announceHash c.data) later ↔
      ¬ t.Holds env now c.iface (announceDest c.data) ∧ later - now < seenAnnounceTTL := by
  obtain ⟨hdr, ann, hdest, -, hreceive⟩ := receive_eq hvalid h
  obtain ⟨paths, pathStates, hclaimed⟩ :=
    t.claimed_eq env c.data (some c.iface) now hdr.destinationHash
  obtain ⟨-, -, -, hseen⟩ := spreadAnnounce_spec env c.ans
    (t.claimed env c.data (some c.iface) now hdr.destinationHash).1 c.data (some c.iface) now hdr
    ann
    (t.claimed env c.data (some c.iface) now hdr.destinationHash).2
  have hpasses := t.passes_iff env c.data now c.iface hdr.destinationHash
  have hclaims : (t.claimed env c.data (some c.iface) now hdr.destinationHash).1.seenAnnounces =
      t.seenAnnounces.insert (env.announceHash c.data) now := by
    rw [hclaimed, AnnounceHistory.remember_of_room env hroom]
  rw [← hreceive, hclaims] at hseen
  rw [hdest] at hpasses hseen
  rw [duplicate, hseen]
  by_cases hheld : t.Holds env now c.iface (announceDest c.data)
  · rw [if_neg (fun hp => (hpasses.1 hp) hheld)]
    simp [hheld]
  · rw [if_pos (hpasses.2 hheld)]
    simp [hheld]

end

end Copy

/-! ## The first copy -/

/-- The path is the one that the copy has made, and no newer announce has. -/
structure MadeBy (env : AnnounceEnv) (c : AnnounceCopy) (now : ℕ) (row : PathRow) : Prop where
  iface : row.iface = some c.iface
  hopCount : row.hopCount = .ofNat (c.hops env)
  expires : row.expires = some (now + env.pathLifetimeFor c.iface)
  known : announceRandom c.data ∈ row.randomBlobs
  timebase : timebaseFromRandomBlobs row.randomBlobs = announceEmitted (announceRandom c.data)

section Order

variable {env : AnnounceEnv} {t : AnnounceNode} {c d : AnnounceCopy} {now later : ℕ}

lemma appended {blobs : List Bytes} {blob : Bytes}
    (hnewer : ∀ b ∈ blobs, announceEmitted b < announceEmitted blob) :
    blob ∈ appendRandomBlob blobs blob ∧
      timebaseFromRandomBlobs (appendRandomBlob blobs blob) = announceEmitted blob := by
  have hnew : blob ∉ blobs := fun hmem => lt_irrefl _ (hnewer blob hmem)
  have hmem := Announce.self_mem_appendRandomBlob hnew
  refine ⟨hmem, le_antisymm (timebase_le_iff.2 ?_) (timebase_le_iff.1 le_rfl blob hmem)⟩
  intro b hb
  rcases Announce.mem_appendRandomBlob hnew hb with hold | rfl
  · exact (hnewer b hold).le
  · exact le_rfl

lemma madeBy_announced {existing : Option PathRow} (nextHop : Bytes)
    (hlen : (announceRandom c.data).length = 10)
    (hnewer : ∀ row, existing = some row → ∀ blob ∈ row.randomBlobs,
      announceEmitted blob < announceEmitted (announceRandom c.data)) :
    MadeBy env c now (.announced existing nextHop c.iface (.ofNat (c.hops env))
      (announceRandom c.data) (now + env.pathLifetimeFor c.iface) now) := by
  obtain ⟨old, hblobs, hold⟩ : ∃ old,
      (PathRow.announced existing nextHop c.iface (.ofNat (c.hops env)) (announceRandom c.data)
          (now + env.pathLifetimeFor c.iface) now).randomBlobs =
        appendRandomBlob old (announceRandom c.data) ∧
      ∀ b ∈ old, announceEmitted b < announceEmitted (announceRandom c.data) := by
    cases existing with
    | none =>
      simp only [PathRow.announced, Reticulum.updatePathUnlocked, if_pos hlen]
      refine ⟨[], rfl, ?_⟩
      intro b hb
      cases hb
    | some row =>
      simp only [PathRow.announced, map_some, Reticulum.updatePathUnlocked]
      split
      · exact ⟨row.randomBlobs, rfl, hnewer row rfl⟩
      · refine ⟨[], rfl, ?_⟩
        intro b hb
        cases hb
  obtain ⟨hknown, htimebase⟩ := appended hold
  refine ⟨rfl, rfl, rfl, ?_, ?_⟩
  · rw [hblobs]
    exact hknown
  · rw [hblobs]
    exact htimebase

lemma live_of_livePath {dest : Bytes} (h : t.livePath dest now = some row) :
    row.toPath.LiveAt now := by
  intro expires hexpires
  have hlive := (filter_eq_some_iff.1 h).2
  by_contra hle
  rw [Bool.not_eq_true', ← Bool.not_eq_true, pathExpiredIn_of_some hexpires] at hlive
  exact hlive (not_lt.1 hle)

lemma chosen_of_newer {existing : Option PathRow} (nextHop : Bytes) (unresponsive : Bool)
    (hlive : ∀ row, existing = some row → row.toPath.LiveAt now)
    (hnewer : ∀ row, existing = some row → 0 < announceEmitted (announceRandom c.data) ∧
      ∀ blob ∈ row.randomBlobs, announceEmitted blob < announceEmitted (announceRandom c.data)) :
    chosen env c now existing nextHop unresponsive =
      some (.announced existing nextHop c.iface (.ofNat (c.hops env))
        (announceRandom c.data) (now + env.pathLifetimeFor c.iface) now) := by
  refine if_pos ?_
  cases existing with
  | none => rfl
  | some row =>
    obtain ⟨hpos, hblobs⟩ := hnewer row rfl
    by_cases hops : .ofNat (c.hops env) ≤ row.hopCount
    · refine (shouldUpdate_of_le row.toPath rfl hops).2 (.inl ⟨?_, ?_⟩)
      · exact fun hmem => lt_irrefl _ (hblobs _ hmem)
      · exact timebase_lt_iff.2 ⟨hpos, hblobs⟩
    · exact (shouldUpdate_of_lt row.toPath rfl (hlive row rfl) (UInt8.not_le.1 hops)).2
        (.inl ⟨hblobs, hpos⟩)

/-- **The first copy makes the path.** -/
lemma Fresh.first_copy (hvalid : c.Valid env) (h : t.Fresh env now c.data) :
    ∃ row, (t.receive env c now).paths.lookup (pathMapKey (announceDest c.data)) = some row ∧
      MadeBy env c now row := by
  obtain ⟨⟨nextHop, unresponsive, hpath⟩, -⟩ := receive_path hvalid h.unclaimed h.roomForPath
  obtain ⟨⟨hdr, ann⟩, hval⟩ := isSome_iff_exists.1 hvalid.validated
  obtain ⟨-, -, hlen⟩ := AnnounceEnv.validated_reads hval
  rw [chosen_of_newer nextHop unresponsive (fun row hrow => live_of_livePath hrow) h.newer] at hpath
  exact ⟨_, hpath, madeBy_announced nextHop hlen fun row hrow => (h.newer row hrow).2⟩

/-! ## The second copy -/

def pathInterface (t : AnnounceNode) (data : Bytes) : Option ℕ :=
  (t.paths.lookup (pathMapKey (announceDest data))).bind fun row => row.iface

lemma MadeBy.chosen_iface (h : MadeBy env c now row)
    (hsame : announceHashed d.data = announceHashed c.data) (hhops : d.hops env = c.hops env)
    (nextHop : Bytes) (unresponsive : Bool) :
    (chosen env d later (some row) nextHop unresponsive).bind (fun row => row.iface) =
      if c.affinity env < d.affinity env then some d.iface else some c.iface := by
  have hrandom := announceRandom_congr hsame
  have hle : .ofNat (d.hops env) ≤ row.hopCount := by
    rw [h.hopCount, hhops]
    exact UInt8.le_refl _
  have htaken : shouldUpdateAnnouncePath (some row.toPath)
      (announcePathInput env (some row) d.iface (.ofNat (d.hops env)) (announceRandom d.data)
        later) unresponsive ↔ c.affinity env < d.affinity env := by
    rw [shouldUpdate_of_le row.toPath rfl hle]
    simp only [announcePathInput, hrandom, h.known, h.timebase, h.iface, bind_some,
      all_some, isSome_some, not_true_eq_false, false_and, true_and, false_or]
    rfl
  by_cases haffinity : c.affinity env < d.affinity env
  · simp only [chosen, map_some, htaken, if_pos haffinity]
    rfl
  · simp only [chosen, map_some, htaken, if_neg haffinity]
    exact h.iface

/-- **The path after a second copy**, on a node where the first has made it. -/
lemma MadeBy.second_copy (h : MadeBy env c now row)
    (hpath : t.paths.lookup (pathMapKey (announceDest c.data)) = some row) (hvalid : d.Valid env)
    (hsame : announceHashed d.data = announceHashed c.data) (hhops : d.hops env = c.hops env)
    (hroom : t.RoomFor env (pathMapKey (announceDest c.data))) :
    (t.receive env d later).pathInterface c.data =
      if t.duplicate (env.announceHash c.data) later then some c.iface
      else if now + env.pathLifetimeFor c.iface ≤ later ∨ c.affinity env < d.affinity env then
        some d.iface
      else some c.iface := by
  have hhash := env.announceHash_congr hsame
  have hdest := announceDest_congr hsame
  cases hdup : t.duplicate (env.announceHash c.data) later with
  | true =>
    rw [receive_of_duplicate (hhash ▸ hdup), pathInterface, hpath]
    exact h.iface
  | false =>
    rw [if_neg Bool.false_ne_true]
    obtain ⟨⟨nextHop, unresponsive, hchosen⟩, -⟩ :=
      receive_path hvalid (hhash ▸ hdup) (hdest ▸ hroom)
    rw [hdest] at hchosen
    rw [pathInterface, hchosen, livePath, hpath, filter_some]
    by_cases hexpired : now + env.pathLifetimeFor c.iface ≤ later
    · rw [(pathExpiredIn_of_some h.expires second later).2 hexpired, Bool.not_true,
        if_neg Bool.false_ne_true, if_pos (.inl hexpired)]
      rfl
    · have hlive : pathExpiredIn second row later = false := by
        rw [← Bool.not_eq_true, pathExpiredIn_of_some h.expires]
        exact hexpired
      rw [hlive, Bool.not_false, if_pos rfl, h.chosen_iface hsame hhops]
      simp [hexpired]

/-! ## Either order -/

/-- Two copies of one announce that is new to the node, on the same number of hops, and the first of
them on the interface of higher affinity. -/
structure Contest (env : AnnounceEnv) (t : AnnounceNode) (hi lo : AnnounceCopy) (now : ℕ) :
    Prop where
  valid_hi : hi.Valid env
  valid_lo : lo.Valid env
  same : announceHashed lo.data = announceHashed hi.data
  hops : lo.hops env = hi.hops env
  affinity : lo.affinity env < hi.affinity env
  fresh : t.Fresh env now hi.data

/-- The claim of a copy that comes first is gone when the other one comes: the copy is held, or an
hour has passed. -/
def Released (env : AnnounceEnv) (t : AnnounceNode) (c : AnnounceCopy) (now later : ℕ) : Prop :=
  t.Holds env now c.iface (announceDest c.data) ∨ seenAnnounceTTL ≤ later - now

lemma Fresh.congr {data data' : Bytes} (h : t.Fresh env now data)
    (hsame : announceHashed data' = announceHashed data) : t.Fresh env now data' := by
  constructor
  · rw [env.announceHash_congr hsame]
    exact h.unclaimed
  · rw [announceDest_congr hsame, announceRandom_congr hsame]
    exact h.newer
  · exact h.roomForClaim
  · rw [announceDest_congr hsame]
    exact h.roomForPath

section Two

variable (h : t.Fresh env now c.data) (hc : c.Valid env) (hd : d.Valid env)
  (hsame : announceHashed d.data = announceHashed c.data) (hhops : d.hops env = c.hops env)

include h hc hd hsame hhops

lemma Fresh.two_copies (later : ℕ) :
    ((t.receive env c now).receive env d later).pathInterface c.data =
      if (t.receive env c now).duplicate (env.announceHash c.data) later then some c.iface
      else if now + env.pathLifetimeFor c.iface ≤ later ∨ c.affinity env < d.affinity env then
        some d.iface
      else some c.iface := by
  obtain ⟨row, hpath, hmade⟩ := h.first_copy hc
  obtain ⟨-, herase⟩ := receive_path hc h.unclaimed h.roomForPath
  refine hmade.second_copy hpath hd hsame hhops ?_
  rw [RoomFor, herase]
  exact h.roomForPath

lemma Fresh.stays (hclaimed : ¬ Released env t c now later) :
    ((t.receive env c now).receive env d later).pathInterface c.data = some c.iface := by
  rw [Released, not_or, not_le, ← receive_claim hc h.unclaimed h.roomForClaim] at hclaimed
  rw [h.two_copies hc hd hsame hhops, if_pos hclaimed]

lemma Fresh.contested (hreleased : Released env t c now later) :
    ((t.receive env c now).receive env d later).pathInterface c.data =
      if now + env.pathLifetimeFor c.iface ≤ later ∨ c.affinity env < d.affinity env then
        some d.iface else some c.iface := by
  have hgone : ¬ (t.receive env c now).duplicate (env.announceHash c.data) later := by
    rw [receive_claim hc h.unclaimed h.roomForClaim, not_and_or, not_not, not_lt]
    exact hreleased
  rw [h.two_copies hc hd hsame hhops, if_neg hgone]

end Two

/-- **Two orders.**  Both orders of the two copies leave the path on the interface of higher
affinity exactly if the claim of the copy of lower affinity is gone when the other one comes, and
the claim of the copy of higher affinity is not, or at least its path has not expired. -/
theorem path_on_higher_iff {hi lo : AnnounceCopy} (h : Contest env t hi lo now) (later : ℕ) :
    (((t.receive env hi now).receive env lo later).pathInterface hi.data = some hi.iface ∧
        ((t.receive env lo now).receive env hi later).pathInterface lo.data = some hi.iface) ↔
      Released env t lo now later ∧
        (Released env t hi now later → later < now + env.pathLifetimeFor hi.iface) := by
  have hne : hi.iface ≠ lo.iface := by
    intro heq
    have haffinity := h.affinity
    rw [AnnounceCopy.affinity, AnnounceCopy.affinity, heq] at haffinity
    exact lt_irrefl _ haffinity
  have hhi : ((t.receive env hi now).receive env lo later).pathInterface hi.data = some hi.iface ↔
      (Released env t hi now later → later < now + env.pathLifetimeFor hi.iface) := by
    by_cases hreleased : Released env t hi now later
    · rw [h.fresh.contested h.valid_hi h.valid_lo h.same h.hops hreleased]
      simp [hreleased, h.affinity.le.not_gt, hne.symm]
    · simp [h.fresh.stays h.valid_hi h.valid_lo h.same h.hops hreleased, hreleased]
  have hlo : ((t.receive env lo now).receive env hi later).pathInterface lo.data = some hi.iface ↔
      Released env t lo now later := by
    have hfresh := h.fresh.congr h.same
    by_cases hreleased : Released env t lo now later
    · rw [hfresh.contested h.valid_lo h.valid_hi h.same.symm h.hops.symm hreleased]
      simp [hreleased, h.affinity]
    · simp [hfresh.stays h.valid_lo h.valid_hi h.same.symm h.hops.symm hreleased, hreleased,
        hne.symm]
  rw [hhi, hlo, and_comm]

end Order

/-! ### Two interfaces -/

def twoGravities : AnnounceEnv where
  sha := .padded
  verify := fun _ _ _ => true
  blackholed := fun _ => false
  iface := fun i => if i = 0 then ⟨[0x61], false, .full, 5⟩ else ⟨[0x62], false, .full, 1⟩
  interfaces := fun name => if name = [0x61] then some 0 else if name = [0x62] then some 1 else none
  penalty := fun _ => 0
  handlers := []
  handlers_nodup := List.nodup_nil
  transportEnabled := true
  maxInMemoryPaths := 0
  rank := fun _ => 0

def quiet : AnnounceNode := ⟨∅, ∅, ∅, fun _ => none, [], []⟩

def copyOn (i : ℕ) : AnnounceCopy :=
  ⟨i, AnnounceHistory.announceOf 7, AnnounceHistory.allAllowed⟩

lemma quiet_contest : Contest twoGravities quiet (copyOn 0) (copyOn 1) 0 where
  valid_hi := ⟨by decide +kernel, by decide⟩
  valid_lo := ⟨by decide +kernel, by decide⟩
  same := rfl
  hops := by decide
  affinity := by decide
  fresh := by
    refine ⟨rfl, ?_, by decide, .inl rfl⟩
    intro row hrow
    cases hrow

/-- The copy on `b` comes a second before the one on `a`, and the path stays on `b`. -/
theorem later_copy_ignored :
    Contest twoGravities quiet (copyOn 0) (copyOn 1) 0 ∧
      ((quiet.receive twoGravities (copyOn 1) 0).receive twoGravities (copyOn 0)
        second).pathInterface (AnnounceHistory.announceOf 7) = some 1 :=
  ⟨quiet_contest, by decide +kernel⟩

/-- An hour later the tie-break is reached. -/
theorem hour_later_on_higher :
    ((quiet.receive twoGravities (copyOn 0) 0).receive twoGravities (copyOn 1)
        seenAnnounceTTL).pathInterface (AnnounceHistory.announceOf 7) = some 0 ∧
      ((quiet.receive twoGravities (copyOn 1) 0).receive twoGravities (copyOn 0)
        seenAnnounceTTL).pathInterface (AnnounceHistory.announceOf 7) = some 0 :=
  (path_on_higher_iff quiet_contest seenAnnounceTTL).2
    ⟨.inr (by decide), fun _ => by decide⟩

end AnnounceNode

end Reticulum

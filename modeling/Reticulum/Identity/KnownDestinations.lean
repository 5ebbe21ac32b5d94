import Reticulum.Identity.KnownRatchets

/-!
# Known destinations

A node remembers the identities of destinations it has heard announces of
(`pkg/identity/identity.go`), in a table of limited size from which those that were not used for
long are cleaned (`pkg/identity/known_clean.go`).  Cleaning holds the lock for short pieces only, so
it is several steps here.

The table is cut back to its limit as part of `rememberKnown`.  The keys that go are the first ones
that the map is visited in, also those of retained destinations
(`KnownDestinations.evicts_retained`).  Nothing else goes wrong: **`KnownDestinations.stable_iff`**.
-/

namespace Reticulum

open AList

namespace Identity.Constants

def keySize : ℕ := 512

def usedDestinationLinger : ℤ := 7 * 24 * 3600 * 5 / 4

def unusedDestinationLinger : ℤ := 6 * 60 * 1000000000

end Identity.Constants

open Identity.Constants

/-! ## The tables -/

structure KnownIdentity where
  publicKey : Bytes
  verificationKey : Bytes
deriving DecidableEq

namespace KnownIdentity

def publicKeyEqual (i : KnownIdentity) (publicKey : Bytes) : Bool :=
  publicKey.length = keySize / 8 ∧ i.publicKey = publicKey.take (keySize / 16) ∧
    i.verificationKey = publicKey.drop (keySize / 16)

def fromPublicKey (publicKey : Bytes) : Option KnownIdentity :=
  if publicKey.length ≠ keySize / 8 then none
  else some ⟨publicKey.take (keySize / 16), publicKey.drop (keySize / 16)⟩

end KnownIdentity

structure KnownDestEntry where
  pkt : Bytes
  hash : Bytes
  rawKey : Bytes
  id : Option KnownIdentity
  app : Bytes
deriving DecidableEq

/-- When a destination was remembered and used last, in seconds.  Not used is `0`, and a use of `-1`
retains the destination. -/
structure KnownDestMeta where
  rememberedAt : ℤ
  lastUsed : ℤ
deriving DecidableEq

structure CleanKnownDestinationsResult where
  total : ℕ
  removed : ℕ
  noPath : ℕ
deriving DecidableEq

/-- A call of `CleanKnownDestinations`, with the keys that it has still to look at. -/
structure Cleaning where
  /-- nanoseconds -/
  now : ℤ
  keys : List Bytes
  stale : List Bytes
  result : CleanKnownDestinationsResult
deriving DecidableEq

namespace Cleaning

def nowUnix (c : Cleaning) : ℤ := c.now / 1000000000

def aged (c : Cleaning) (m : KnownDestMeta) : Bool :=
  if m.lastUsed = 0 then unusedDestinationLinger < c.now - m.rememberedAt * 1000000000
  else usedDestinationLinger < c.nowUnix - m.lastUsed

end Cleaning

structure KnownDestinations where
  knownDestMaxEntries : ℕ
  knownDestinations : Map Bytes KnownDestEntry
  knownDestMetaByKey : Map Bytes KnownDestMeta
  dirty : Bool
  cleanings : List Cleaning
  /-- what `CleanKnownDestinations` has returned -/
  cleaned : List CleanKnownDestinationsResult

/-- A call, or a step of `CleanKnownDestinations`.  The clock is read in seconds where it is `now`,
and in nanoseconds where cleaning starts; maps are visited in the order of `rank`. -/
inductive KnownDestEvent where
  | remember (packet destHash publicKey appData : Bytes) (id : Option KnownIdentity) (now : ℤ)
      (rank : Bytes → ℕ)
  | retain (destHash : Bytes) (now : ℤ)
  | touch (destHash : Bytes) (now : ℤ)
  | clean (now : ℤ) (rank : Bytes → ℕ)
  | inspect (n : ℕ) (pathPresent : Bool)
  | sweep (n : ℕ) (hasPath : Bytes → Bool)

def KnownDestEvent.remembers : KnownDestEvent → Option Bytes
  | .remember _ destHash _ _ _ _ _ => some destHash
  | _ => none

namespace KnownDestinations

def empty (maxEntries : ℕ) : KnownDestinations where
  knownDestMaxEntries := maxEntries
  knownDestinations := ∅
  knownDestMetaByKey := ∅
  dirty := false
  cleanings := []
  cleaned := []

/-! ## The calls -/

section

variable (s : KnownDestinations)

def metaOf (key : Bytes) : KnownDestMeta :=
  (s.knownDestMetaByKey.lookup key).getD ⟨0, 0⟩

def setKnownDestMeta (key : Bytes) (rememberedAt lastUsed now : ℤ) : KnownDestinations :=
  let m : KnownDestMeta := ⟨if rememberedAt ≤ 0 then now else rememberedAt, lastUsed⟩
  { s with knownDestMetaByKey := s.knownDestMetaByKey.insert key m }

/-- The keys that are evicted: the first ones that are visited, as many as there are too many. -/
def evicted (rank : Bytes → ℕ) : List Bytes :=
  let size := s.knownDestinations.entries.length
  if s.knownDestMaxEntries = 0 ∨ size ≤ s.knownDestMaxEntries then []
  else ((Table.visited rank s.knownDestinations).map Sigma.fst).take (size - s.knownDestMaxEntries)

def deleteAll (keys : List Bytes) : KnownDestinations :=
  { s with
    knownDestinations := Table.eraseAll s.knownDestinations keys
    knownDestMetaByKey := Table.eraseAll s.knownDestMetaByKey keys }

def evictKnownDestinationsIfNeeded (rank : Bytes → ℕ) : KnownDestinations :=
  s.deleteAll (s.evicted rank)

def renew (key : Bytes) (existing : KnownDestEntry)
    (packet appData : Bytes) (now : ℤ) : KnownDestinations :=
  { s with
    knownDestinations :=
      if existing.pkt = packet ∧ existing.app = appData then s.knownDestinations
      else s.knownDestinations.insert key { existing with pkt := packet, app := appData }
    knownDestMetaByKey :=
      s.knownDestMetaByKey.insert key { s.metaOf key with rememberedAt := now }
    dirty := true }

def insertKnown (packet destHash publicKey appData : Bytes)
    (id : Option KnownIdentity) (now : ℤ) : KnownDestinations :=
  let key := knownDestKey destHash
  let id :=
    match id with
    | none => KnownIdentity.fromPublicKey publicKey
    | some i =>
      if i.publicKeyEqual publicKey then some i else KnownIdentity.fromPublicKey publicKey
  let entry : KnownDestEntry :=
    { pkt := packet, hash := destHash, rawKey := key, id, app := appData }
  let lastUsed := if (s.metaOf key).lastUsed < 0 then -1 else 0
  setKnownDestMeta
    { s with knownDestinations := s.knownDestinations.insert key entry, dirty := true }
    key now lastUsed now

def rememberKnown (packet destHash publicKey appData : Bytes)
    (id : Option KnownIdentity) (now : ℤ) (rank : Bytes → ℕ) : KnownDestinations × Bool :=
  let key := knownDestKey destHash
  let fresh := (s.insertKnown packet destHash publicKey appData id now)
  match s.knownDestinations.lookup key with
  | some existing =>
    match existing.id with
    | some i =>
      if i.publicKeyEqual publicKey then (s.renew key existing packet appData now, true)
      else (s, false)
    | none => (fresh.evictKnownDestinationsIfNeeded rank, true)
  | none => (fresh.evictKnownDestinationsIfNeeded rank, true)

def retainKnownDestination (destHash : Bytes) (now : ℤ) : KnownDestinations :=
  let key := knownDestKey destHash
  if destHash.length = 0 then s
  else if (s.knownDestinations.lookup key).isNone then s
  else
    let m := s.metaOf key
    let rememberedAt := if m.rememberedAt = 0 then now else m.rememberedAt
    { s with
      knownDestMetaByKey := s.knownDestMetaByKey.insert key ⟨rememberedAt, -1⟩
      dirty := true }

def touchKnownDestination (destHash : Bytes) (now : ℤ) : KnownDestinations :=
  let key := knownDestKey destHash
  if destHash.length = 0 then s
  else
    match s.knownDestMetaByKey.lookup key with
    | some m =>
      if m.lastUsed < 0 then s
      else
        { s with knownDestMetaByKey := s.knownDestMetaByKey.insert key { m with lastUsed := now } }
    | none =>
      if (s.knownDestinations.lookup key).isNone then s
      else { s with knownDestMetaByKey := s.knownDestMetaByKey.insert key ⟨now, now⟩ }

/-! ## Cleaning -/

def startCleaning (now : ℤ) (rank : Bytes → ℕ) : KnownDestinations :=
  let keys := (Table.visited rank s.knownDestinations).map Sigma.fst
  { s with
    cleanings := s.cleanings ++
      [{ now, keys, stale := [], result := ⟨keys.length, 0, 0⟩ }] }

def inspected (c : Cleaning) (key : Bytes) (keys : List Bytes) (pathPresent : Bool) : Cleaning :=
  let result :=
    if pathPresent then c.result else { c.result with noPath := c.result.noPath + 1 }
  let m := (s.knownDestMetaByKey.lookup key).getD ⟨c.nowUnix, 0⟩
  let stale :=
    if (s.knownDestinations.lookup key).isNone then c.stale
    else if m.lastUsed < 0 then c.stale
    else if pathPresent then c.stale
    else if c.aged m then c.stale ++ [key]
    else c.stale
  { c with keys, stale, result }

def stillStaleForClean (c : Cleaning) (key : Bytes) (hasPath : Bytes → Bool) : Bool :=
  if (s.knownDestinations.lookup key).isNone then false
  else
    match s.knownDestMetaByKey.lookup key with
    | none => false
    | some m =>
      if m.lastUsed < 0 then false
      else if hasPath key then false
      else c.aged m

end

def deleteStale (c : Cleaning) (hasPath : Bytes → Bool) :
    KnownDestinations × ℕ → List Bytes → KnownDestinations × ℕ
  | found, [] => found
  | (s, removed), key :: keys =>
    if s.stillStaleForClean c key hasPath then
      deleteStale c hasPath (s.deleteAll [key], removed + 1) keys
    else deleteStale c hasPath (s, removed) keys

section

variable (s : KnownDestinations)

def inspectNext (n : ℕ) (pathPresent : Bool) : KnownDestinations :=
  match s.cleanings[n]? with
  | none => s
  | some c =>
    match c.keys with
    | [] => s
    | key :: keys => { s with cleanings := s.cleanings.set n (s.inspected c key keys pathPresent) }

def sweepStale (n : ℕ) (hasPath : Bytes → Bool) : KnownDestinations :=
  match s.cleanings[n]? with
  | none => s
  | some c =>
    if c.keys ≠ [] then s
    else
      let swept := deleteStale c hasPath (s, 0) c.stale
      { swept.1 with
        dirty := s.dirty || (0 < swept.2 : Bool)
        cleanings := s.cleanings.eraseIdx n
        cleaned := s.cleaned ++ [{ c.result with removed := swept.2 }] }

def step : KnownDestEvent → KnownDestinations
  | .remember packet destHash publicKey appData id now rank =>
    (s.rememberKnown packet destHash publicKey appData id now rank).1
  | .retain destHash now => s.retainKnownDestination destHash now
  | .touch destHash now => s.touchKnownDestination destHash now
  | .clean now rank => s.startCleaning now rank
  | .inspect n pathPresent => s.inspectNext n pathPresent
  | .sweep n hasPath => s.sweepStale n hasPath

/-! ## What is to hold -/

def Retained (key : Bytes) : Prop :=
  key ∈ s.knownDestinations ∧ (s.metaOf key).lastUsed < 0

instance decidableRetained (key : Bytes) : Decidable (s.Retained key) :=
  inferInstanceAs (Decidable (_ ∧ _))

def unretained : List Bytes :=
  s.knownDestinations.keys.filter fun key => ¬ s.Retained key

structure Stable (s : KnownDestinations) (e : KnownDestEvent) : Prop where
  /-- A destination that stays known keeps its public key. -/
  publicKey : ∀ key a b, s.knownDestinations.lookup key = some a →
    (s.step e).knownDestinations.lookup key = some b → a.id.isSome → b.id = a.id
  /-- A retained destination stays known, and retained. -/
  retained : ∀ key, s.Retained key → (s.step e).Retained key
  /-- A destination is known when it has been remembered. -/
  remembered : ∀ destHash, e.remembers = some destHash →
    knownDestKey destHash ∈ (s.step e).knownDestinations
  room : (s.step e).unretained.length ≤ s.knownDestMaxEntries

def firstVisited (rank : Bytes → ℕ) (key : Bytes) : Option Bytes :=
  ((key :: s.knownDestinations.keys).insertionSort fun a b => rank a ≤ rank b).head?

/-- Where a new destination is put into a full table, the map is not visited at it first, nor at a
retained one. -/
def Allowed : KnownDestEvent → Prop
  | .remember _ destHash _ _ _ _ rank =>
    let key := knownDestKey destHash
    key ∉ s.knownDestinations → s.knownDestMaxEntries ≤ s.knownDestinations.entries.length →
      ∀ first ∈ s.firstVisited rank key, first ≠ key ∧ ¬ s.Retained first
  | _ => True

instance decidableAllowed (e : KnownDestEvent) : Decidable (s.Allowed e) := by
  cases e <;> unfold Allowed <;> infer_instance

end

structure Inv (s : KnownDestinations) : Prop where
  limit : 0 < s.knownDestMaxEntries
  room : s.knownDestinations.entries.length ≤ s.knownDestMaxEntries

variable {s s' : KnownDestinations} {key : Bytes} {keys : List Bytes} {e : KnownDestEvent}

lemma inv_empty {maxEntries : ℕ} (h : 0 < maxEntries) : (empty maxEntries).Inv where
  limit := h
  room := Nat.zero_le _

lemma length_unretained_le : s.unretained.length ≤ s.knownDestinations.entries.length :=
  (List.length_filter_le _ _).trans_eq (List.length_map _)

/-! ## Steps that remove nothing -/

lemma Retained.of_insert {m : KnownDestMeta}
    (hmeta : s'.knownDestMetaByKey = s.knownDestMetaByKey.insert key m)
    (hm : s.Retained key → m.lastUsed < 0) {k : Bytes} (h : s.Retained k)
    (hknown : k ∈ s'.knownDestinations) : s'.Retained k := by
  refine ⟨hknown, ?_⟩
  rw [metaOf, hmeta]
  by_cases hk : k = key
  · subst hk
    rw [lookup_insert]
    exact hm h
  · rw [lookup_insert_ne hk]
    exact h.2

lemma stable_of_meta (hs : s.Inv) (he : e.remembers = none)
    (hknown : (s.step e).knownDestinations = s.knownDestinations)
    (hretained : ∀ k, s.Retained k → (s.step e).Retained k) : s.Stable e where
  publicKey := by
    intro k a b ha hb _
    rw [hknown, ha] at hb
    cases hb
    rfl
  retained := hretained
  remembered := by
    intro destHash h
    rw [he] at h
    cases h
  room := by
    refine length_unretained_le.trans ?_
    rw [hknown]
    exact hs.room

lemma knownDestinations_retain (destHash : Bytes) (now : ℤ) :
    (s.retainKnownDestination destHash now).knownDestinations = s.knownDestinations := by
  rw [retainKnownDestination]
  split_ifs <;> rfl

lemma stable_retain (hs : s.Inv) (destHash : Bytes) (now : ℤ) :
    s.Stable (.retain destHash now) := by
  refine stable_of_meta hs rfl (knownDestinations_retain destHash now) fun k hk => ?_
  rw [step, retainKnownDestination]
  split_ifs
  · exact hk
  · exact hk
  · exact .of_insert rfl (fun _ => Int.negSucc_lt_zero 0) hk hk.1

lemma touch_cases (s : KnownDestinations) (destHash : Bytes) (now : ℤ) :
    s.touchKnownDestination destHash now = s ∨
      ∃ m, ¬ s.Retained (knownDestKey destHash) ∧ s.touchKnownDestination destHash now =
        { s with knownDestMetaByKey := s.knownDestMetaByKey.insert (knownDestKey destHash) m } := by
  unfold touchKnownDestination
  by_cases hempty : destHash.length = 0
  · exact .inl (if_pos hempty)
  simp only [hempty]
  match hm : s.knownDestMetaByKey.lookup (knownDestKey destHash) with
  | some m =>
    by_cases hneg : m.lastUsed < 0
    · exact .inl (if_pos hneg)
    · refine .inr ⟨_, fun h => hneg ?_, if_neg hneg⟩
      simpa [metaOf, hm] using h.2
  | none =>
    by_cases hnone : (s.knownDestinations.lookup (knownDestKey destHash)).isNone
    · exact .inl (if_pos hnone)
    · refine .inr ⟨_, fun h => ?_, if_neg hnone⟩
      simpa [metaOf, hm] using h.2

lemma knownDestinations_touch (destHash : Bytes) (now : ℤ) :
    (s.touchKnownDestination destHash now).knownDestinations = s.knownDestinations := by
  obtain heq | ⟨m, -, heq⟩ := s.touch_cases destHash now <;> rw [heq]

lemma stable_touch (hs : s.Inv) (destHash : Bytes) (now : ℤ) : s.Stable (.touch destHash now) := by
  refine stable_of_meta hs rfl (knownDestinations_touch destHash now) fun k hk => ?_
  rw [step]
  obtain heq | ⟨m, hnot, heq⟩ := s.touch_cases destHash now <;> rw [heq]
  · exact hk
  · exact .of_insert rfl (fun h => absurd h hnot) hk hk.1

lemma inspectNext_eq (s : KnownDestinations) (n : ℕ) (pathPresent : Bool) :
    ∃ cleanings, s.inspectNext n pathPresent = { s with cleanings } := by
  rw [inspectNext]
  split
  · exact ⟨_, rfl⟩
  · split <;> exact ⟨_, rfl⟩

lemma stable_clean (hs : s.Inv) (now : ℤ) (rank : Bytes → ℕ) : s.Stable (.clean now rank) :=
  stable_of_meta hs rfl rfl fun _ hk => hk

lemma stable_inspect (hs : s.Inv) (n : ℕ) (pathPresent : Bool) :
    s.Stable (.inspect n pathPresent) := by
  obtain ⟨cleanings, heq⟩ := s.inspectNext_eq n pathPresent
  refine stable_of_meta hs rfl ?_ fun k hk => ?_
  all_goals rw [step, heq]
  exact hk

/-! ## Deleting what is stale -/

structure Thinned (s s' : KnownDestinations) : Prop where
  known : ∀ k a, s'.knownDestinations.lookup k = some a → s.knownDestinations.lookup k = some a
  retained : ∀ k, s.Retained k → s'.Retained k
  length : s'.knownDestinations.entries.length ≤ s.knownDestinations.entries.length

lemma Thinned.refl (s : KnownDestinations) : Thinned s s :=
  ⟨fun _ _ h => h, fun _ h => h, le_refl _⟩

lemma Thinned.trans {s'' : KnownDestinations} (h : Thinned s s') (h' : Thinned s' s'') :
    Thinned s s'' :=
  ⟨fun k a ha => h.known k a (h'.known k a ha), fun k hk => h'.retained k (h.retained k hk),
    h'.length.trans h.length⟩

lemma lookup_deleteAll (keys : List Bytes) (k : Bytes) :
    (s.deleteAll keys).knownDestinations.lookup k =
      if k ∈ keys then none else s.knownDestinations.lookup k := by
  rw [deleteAll, Table.lookup_eraseAll]
  congr

lemma metaOf_deleteAll {k : Bytes} (hk : k ∉ keys) : (s.deleteAll keys).metaOf k = s.metaOf k := by
  rw [metaOf, deleteAll, Table.lookup_eraseAll, if_neg hk]
  rfl

lemma mem_deleteAll {k : Bytes} :
    k ∈ (s.deleteAll keys).knownDestinations ↔ k ∉ keys ∧ k ∈ s.knownDestinations := by
  rw [← lookup_isSome, lookup_deleteAll, ← lookup_isSome]
  split_ifs with h <;> simp [h]

lemma retained_deleteAll {k : Bytes} : (s.deleteAll keys).Retained k ↔ k ∉ keys ∧ s.Retained k := by
  rw [Retained, mem_deleteAll, and_assoc]
  refine and_congr_right fun hk => ?_
  rw [metaOf_deleteAll hk]
  rfl

lemma thinned_deleteAll (hkeys : ∀ k ∈ keys, ¬ s.Retained k) : Thinned s (s.deleteAll keys) where
  known := by
    intro k a ha
    rw [lookup_deleteAll] at ha
    split_ifs at ha with hk
    exact ha
  retained k hk := retained_deleteAll.mpr ⟨fun hmem => hkeys k hmem hk, hk⟩
  length := Table.length_eraseAll_le _ keys

lemma not_retained_of_stillStale {c : Cleaning} {hasPath : Bytes → Bool}
    (h : s.stillStaleForClean c key hasPath) : ¬ s.Retained key := by
  rintro ⟨-, hneg⟩
  rw [metaOf] at hneg
  rw [stillStaleForClean] at h
  match hm : s.knownDestMetaByKey.lookup key with
  | none => simp [hm] at h
  | some m =>
    rw [hm, Option.getD_some] at hneg
    simp [hm, hneg] at h

/-- **The loop that deletes** removes nothing that is retained: it looks at each key again, with
the lock held. -/
lemma thinned_deleteStale (c : Cleaning) (hasPath : Bytes → Bool) (keys : List Bytes) (n : ℕ) :
    Thinned s (deleteStale c hasPath (s, n) keys).1 := by
  induction keys generalizing s n with
  | nil => exact .refl s
  | cons key keys ih =>
    rw [deleteStale]
    split_ifs with hstale
    · refine .trans (thinned_deleteAll ?_) (ih (n + 1))
      intro k hk
      rw [List.mem_singleton.mp hk]
      exact not_retained_of_stillStale hstale
    · exact ih n

lemma thinned_sweepStale (n : ℕ) (hasPath : Bytes → Bool) : Thinned s (s.sweepStale n hasPath) := by
  rw [sweepStale]
  split
  · exact .refl s
  next c _ =>
    split_ifs
    · exact .refl s
    · have h := thinned_deleteStale (s := s) c hasPath c.stale 0
      exact { h with }

lemma stable_sweep (hs : s.Inv) (n : ℕ) (hasPath : Bytes → Bool) : s.Stable (.sweep n hasPath) where
  publicKey := by
    intro k a b ha hb _
    rw [(thinned_sweepStale n hasPath).known k b hb] at ha
    cases ha
    rfl
  retained := (thinned_sweepStale n hasPath).retained
  remembered := by
    intro destHash h
    cases h
  room := length_unretained_le.trans ((thinned_sweepStale n hasPath).length.trans hs.room)

/-! ## Remembering -/

/-- **All that `rememberKnown` can do**: nothing, where the key is another one; an announce is
renewed; or a destination is put in and the table is cut back. -/
lemma rememberKnown_cases (s : KnownDestinations) (packet destHash publicKey appData : Bytes)
    (id : Option KnownIdentity) (now : ℤ) (rank : Bytes → ℕ) : let key := knownDestKey destHash
    let s' := (s.rememberKnown packet destHash publicKey appData id now rank).1
    (key ∈ s.knownDestinations ∧ s' = s) ∨
    (∃ e, s.knownDestinations.lookup key = some e ∧ s' = s.renew key e packet appData now) ∨
    ((∀ e, s.knownDestinations.lookup key = some e → e.id = none) ∧
      s' = (s.insertKnown packet destHash publicKey appData id now).evictKnownDestinationsIfNeeded
        rank) := by
  intro key s'
  have hs' : s' = (s.rememberKnown packet destHash publicKey appData id now rank).1 := rfl
  rw [rememberKnown] at hs'
  match he : s.knownDestinations.lookup key with
  | none =>
    rw [he] at hs'
    exact .inr (.inr ⟨by simp, hs'⟩)
  | some e =>
    have hmem : key ∈ s.knownDestinations := lookup_isSome.mp (by simp [he])
    rw [he] at hs'
    match hid : e.id with
    | none =>
      simp only [hid] at hs'
      exact .inr (.inr ⟨by simp [hid], hs'⟩)
    | some i =>
      simp only [hid] at hs'
      by_cases heq : i.publicKeyEqual publicKey
      · rw [if_pos heq] at hs'
        exact .inr (.inl ⟨e, rfl, hs'⟩)
      · rw [if_neg heq] at hs'
        exact .inl ⟨hmem, hs'⟩

section

variable {packet destHash publicKey appData : Bytes} {id : Option KnownIdentity} {now : ℤ}
variable {rank : Bytes → ℕ} {e : KnownDestEntry}

section

variable (he : s.knownDestinations.lookup key = some e)
include he

lemma lookup_renew (k : Bytes) :
    (s.renew key e packet appData now).knownDestinations.lookup k =
      if k = key then some { e with pkt := packet, app := appData }
      else s.knownDestinations.lookup k := by
  simp only [renew]
  split_ifs with hsame hk hk
  · obtain ⟨rfl, rfl⟩ := hsame
    rw [hk, he]
  · rfl
  · rw [hk, lookup_insert]
  · exact lookup_insert_ne hk

lemma length_renew :
    (s.renew key e packet appData now).knownDestinations.entries.length =
      s.knownDestinations.entries.length := by
  simp only [renew]
  split_ifs
  · rfl
  · exact Table.length_insert_of_mem he _

lemma retained_renew {k : Bytes} (hk : s.Retained k)
    : (s.renew key e packet appData now).Retained k := by
  refine .of_insert (m := { s.metaOf key with rememberedAt := now }) rfl
    (fun h => h.2) hk ?_
  rw [← lookup_isSome, lookup_renew he]
  split_ifs
  · rfl
  · exact lookup_isSome.mpr hk.1

end

lemma lookup_insertKnown_of_ne {k : Bytes} (hk : k ≠ knownDestKey destHash) :
    (s.insertKnown packet destHash publicKey appData id now).knownDestinations.lookup k =
      s.knownDestinations.lookup k :=
  lookup_insert_ne hk

lemma mem_insertKnown {k : Bytes} :
    k ∈ (s.insertKnown packet destHash publicKey appData id now).knownDestinations ↔
      k = knownDestKey destHash ∨ k ∈ s.knownDestinations :=
  mem_insert _

lemma retained_insertKnown {k : Bytes} (hk : s.Retained k) :
    (s.insertKnown packet destHash publicKey appData id now).Retained k := by
  refine .of_insert rfl (fun h => ?_) hk (mem_insertKnown.mpr (.inr hk.1))
  simp only [h.2]
  exact Int.negSucc_lt_zero 0

lemma length_evict (hlimit : 0 < s.knownDestMaxEntries) :
    (s.evictKnownDestinationsIfNeeded rank).knownDestinations.entries.length ≤
      s.knownDestMaxEntries := by
  rw [evictKnownDestinationsIfNeeded, deleteAll, evicted]
  split_ifs with h
  · exact h.resolve_left hlimit.ne'
  · have hlen := Table.length_eraseAll_take (t := s.knownDestinations) rank
      (Nat.sub_le _ s.knownDestMaxEntries)
    dsimp only
    omega

/-! ## What is evicted -/

lemma evicted_insertKnown_of_room (hs : s.Inv) (h : knownDestKey destHash ∈ s.knownDestinations ∨
      s.knownDestinations.entries.length < s.knownDestMaxEntries) :
    (s.insertKnown packet destHash publicKey appData id now).evicted rank = [] := by
  refine if_pos (.inr ?_)
  obtain hmem | hroom := h
  · obtain ⟨e, he⟩ := Option.isSome_iff_exists.mp (lookup_isSome.mpr hmem)
    exact (Table.length_insert_of_mem he _).trans_le hs.room
  · exact (Table.length_insert_le _ _ _).trans hroom

lemma evicted_insertKnown_of_full (hs : s.Inv) (hnew : knownDestKey destHash ∉ s.knownDestinations)
    (hfull : s.knownDestMaxEntries ≤ s.knownDestinations.entries.length) :
    (s.insertKnown packet destHash publicKey appData id now).evicted rank =
      (s.firstVisited rank (knownDestKey destHash)).toList := by
  set s' := s.insertKnown packet destHash publicKey appData id now
  have hroom := hs.room
  have hlimit := hs.limit
  have hkeys : s'.knownDestinations.keys = knownDestKey destHash :: s.knownDestinations.keys :=
    Table.keys_insert_of_not_mem hnew _
  have hlen : s'.knownDestinations.entries.length = s.knownDestMaxEntries + 1 := by
    have h := congrArg List.length hkeys
    simp only [keys, List.keys, List.length_cons, List.length_map] at h
    omega
  have hvisited : (Table.visited rank s'.knownDestinations).map Sigma.fst =
      (knownDestKey destHash :: s.knownDestinations.keys).insertionSort
        fun a b => rank a ≤ rank b := by
    rw [← hkeys]
    exact List.map_insertionSort _ _ _ _ fun _ _ _ _ => .rfl
  have hmax : s'.knownDestMaxEntries = s.knownDestMaxEntries := rfl
  rw [evicted, hmax, hlen, if_neg (by omega), Nat.add_sub_cancel_left, hvisited, firstVisited]
  cases (knownDestKey destHash :: s.knownDestinations.keys).insertionSort
    fun a b => rank a ≤ rank b with
  | nil => rfl
  | cons a l => rfl

lemma evicted_insertKnown (hs : s.Inv)
    (hallowed : s.Allowed (.remember packet destHash publicKey appData id now rank)) :
    ∀ k ∈ (s.insertKnown packet destHash publicKey appData id now).evicted rank,
      k ≠ knownDestKey destHash ∧ ¬ s.Retained k := by
  intro k hk
  by_cases h : knownDestKey destHash ∈ s.knownDestinations ∨
      s.knownDestinations.entries.length < s.knownDestMaxEntries
  · rw [evicted_insertKnown_of_room hs h] at hk
    cases hk
  · obtain ⟨hnew, hfull⟩ := not_or.mp h
    rw [evicted_insertKnown_of_full hs hnew (not_lt.mp hfull), Option.mem_toList] at hk
    exact hallowed hnew (not_lt.mp hfull) k hk

end

/-! ## One step, and a run -/

lemma knownDestMaxEntries_deleteStale (c : Cleaning) (hasPath : Bytes → Bool) (keys : List Bytes)
    (n : ℕ) :
    (deleteStale c hasPath (s, n) keys).1.knownDestMaxEntries = s.knownDestMaxEntries := by
  induction keys generalizing s n with
  | nil => rfl
  | cons key keys ih =>
    rw [deleteStale]
    split_ifs
    · exact ih (n + 1)
    · exact ih n

lemma knownDestMaxEntries_step (s : KnownDestinations) (e : KnownDestEvent) :
    (s.step e).knownDestMaxEntries = s.knownDestMaxEntries := by
  cases e with
  | remember packet destHash publicKey appData id now rank =>
    obtain ⟨-, heq⟩ | ⟨_, -, heq⟩ | ⟨-, heq⟩ :=
      s.rememberKnown_cases packet destHash publicKey appData id now rank
    all_goals exact (congrArg knownDestMaxEntries heq).trans rfl
  | retain destHash now =>
    rw [step, retainKnownDestination]
    split_ifs <;> rfl
  | touch destHash now =>
    rw [step]
    obtain heq | ⟨m, -, heq⟩ := s.touch_cases destHash now <;> rw [heq]
  | clean now rank => rfl
  | inspect n pathPresent =>
    obtain ⟨cleanings, heq⟩ := s.inspectNext_eq n pathPresent
    rw [step, heq]
  | sweep n hasPath =>
    rw [step, sweepStale]
    split
    · rfl
    · split_ifs
      · rfl
      · exact knownDestMaxEntries_deleteStale _ hasPath _ 0

lemma length_remember (hs : s.Inv) (packet destHash publicKey appData : Bytes)
    (id : Option KnownIdentity) (now : ℤ) (rank : Bytes → ℕ) :
    (s.rememberKnown packet destHash publicKey appData id now
      rank).1.knownDestinations.entries.length ≤ s.knownDestMaxEntries := by
  obtain ⟨-, heq⟩ | ⟨_, he, heq⟩ | ⟨-, heq⟩ :=
    s.rememberKnown_cases packet destHash publicKey appData id now rank
  all_goals rw [heq]
  · exact hs.room
  · exact (length_renew he).trans_le hs.room
  · exact length_evict hs.limit

lemma stable_remember (hs : s.Inv) {packet destHash publicKey appData : Bytes}
    {id : Option KnownIdentity} {now : ℤ} {rank : Bytes → ℕ}
    (hallowed : s.Allowed (.remember packet destHash publicKey appData id now rank)) :
    s.Stable (.remember packet destHash publicKey appData id now rank) := by
  have hroom := length_unretained_le.trans
    (length_remember hs packet destHash publicKey appData id now rank)
  obtain ⟨hmem, heq⟩ | ⟨e, he, heq⟩ | ⟨hid, heq⟩ :=
    s.rememberKnown_cases packet destHash publicKey appData id now rank
  all_goals
    refine ⟨?_, ?_, ?_, hroom⟩
    all_goals
      rw [step, heq]
  · intro k a b ha hb _
    rw [ha] at hb
    cases hb
    rfl
  · exact fun _ hk => hk
  · rintro _ ⟨⟩
    exact hmem
  · intro k a b ha hb _
    rw [lookup_renew he] at hb
    split_ifs at hb with hk
    · rw [hk, he] at ha
      cases ha
      cases hb
      rfl
    · rw [ha] at hb
      cases hb
      rfl
  · exact fun _ hk => retained_renew he hk
  · rintro _ ⟨⟩
    rw [← lookup_isSome, lookup_renew he, if_pos rfl]
    rfl
  · intro k a b ha hb hsome
    rw [evictKnownDestinationsIfNeeded, lookup_deleteAll] at hb
    split_ifs at hb
    by_cases hk : k = knownDestKey destHash
    · rw [hid a (hk ▸ ha)] at hsome
      cases hsome
    · rw [lookup_insertKnown_of_ne hk, ha] at hb
      cases hb
      rfl
  · intro k hk
    refine retained_deleteAll.mpr ⟨fun hmem => ?_, retained_insertKnown hk⟩
    exact (evicted_insertKnown hs hallowed k hmem).2 hk
  · rintro _ ⟨⟩
    refine mem_deleteAll.mpr ⟨fun hmem => ?_, mem_insertKnown.mpr (.inl rfl)⟩
    exact (evicted_insertKnown hs hallowed _ hmem).1 rfl

/-- **One step** is stable if it is allowed. -/
lemma stable_of_allowed (hs : s.Inv) (he : s.Allowed e) : s.Stable e := by
  cases e with
  | remember packet destHash publicKey appData id now rank => exact stable_remember hs he
  | retain destHash now => exact stable_retain hs destHash now
  | touch destHash now => exact stable_touch hs destHash now
  | clean now rank => exact stable_clean hs now rank
  | inspect n pathPresent => exact stable_inspect hs n pathPresent
  | sweep n hasPath => exact stable_sweep hs n hasPath

lemma allowed_of_stable (hs : s.Inv) (he : s.Stable e) : s.Allowed e := by
  cases e with
  | remember packet destHash publicKey appData id now rank =>
    intro hnew hfull first hfirst
    have heq : s.step (.remember packet destHash publicKey appData id now rank) =
        (s.insertKnown packet destHash publicKey appData id now).deleteAll [first] := by
      obtain ⟨hmem, -⟩ | ⟨e, he, -⟩ | ⟨-, heq⟩ :=
        s.rememberKnown_cases packet destHash publicKey appData id now rank
      · exact absurd hmem hnew
      · exact absurd (lookup_isSome.mp (by simp [he])) hnew
      · rw [step, heq, evictKnownDestinationsIfNeeded, evicted_insertKnown_of_full hs hnew hfull,
          Option.mem_def.mp hfirst]
        rfl
    constructor
    · rintro rfl
      have hmem := he.remembered destHash rfl
      rw [heq, mem_deleteAll] at hmem
      exact hmem.1 (List.mem_singleton_self _)
    · intro hretained
      have hmem := he.retained first hretained
      rw [heq, retained_deleteAll] at hmem
      exact hmem.1 (List.mem_singleton_self _)
  | _ => trivial

lemma Inv.step (hs : s.Inv) (e : KnownDestEvent) : (s.step e).Inv where
  limit := by
    rw [knownDestMaxEntries_step]
    exact hs.limit
  room := by
    rw [knownDestMaxEntries_step]
    cases e with
    | remember packet destHash publicKey appData id now rank =>
      exact length_remember hs packet destHash publicKey appData id now rank
    | retain destHash now =>
      rw [KnownDestinations.step, knownDestinations_retain]
      exact hs.room
    | touch destHash now =>
      rw [KnownDestinations.step, knownDestinations_touch]
      exact hs.room
    | clean now rank => exact hs.room
    | inspect n pathPresent =>
      obtain ⟨cleanings, heq⟩ := s.inspectNext_eq n pathPresent
      rw [KnownDestinations.step, heq]
      exact hs.room
    | sweep n hasPath => exact (thinned_sweepStale n hasPath).length.trans hs.room

/-- **Destinations are stable** along a run exactly when the map is never visited at the new
destination first, or at a retained one, where the table is full. -/
theorem stable_iff {maxEntries : ℕ} (h : 0 < maxEntries) (es : List KnownDestEvent) :
    Run.Along step Stable (empty maxEntries) es ↔ Run.Along step Allowed (empty maxEntries) es :=
  Run.along_congr (I := Inv) (fun _ e hs => hs.step e)
    (fun _ _ hs => ⟨allowed_of_stable hs, stable_of_allowed hs⟩) (inv_empty h) es

/-! ## What goes wrong -/

def announced (b : UInt8) (rank : Bytes → ℕ) : KnownDestEvent :=
  .remember [] (b :: .replicate 15 0) (.replicate 64 b) [] none 1 rank

/-- A table for two destinations takes in three, of which one is retained. -/
theorem stable_of_three :
    let es := [announced 1 fun _ => 0, .retain (1 :: .replicate 15 0) 1,
      announced 2 fun _ => 0, announced 3 fun k => if k.head? = some 2 then 0 else 1]
    Run.Along step Stable (empty 2) es ∧
      (Run.exec step (empty 2) es).knownDestinations.keys.map List.head? = [some 3, some 1] :=
  ⟨(stable_iff (by decide) _).mpr (by decide +kernel), by decide +kernel⟩

/-- The only place is taken by a retained destination, and it is given to the next one. -/
theorem evicts_retained :
    let s := Run.exec step (empty 1) [announced 1 fun _ => 0, .retain (1 :: .replicate 15 0) 1]
    let key := knownDestKey (1 :: .replicate 15 0)
    s.Retained key ∧
      key ∉ (s.step
        (announced 2 fun k => if k.head? = some 1 then 0 else 1)).knownDestinations := by
  decide +kernel

end KnownDestinations

end Reticulum

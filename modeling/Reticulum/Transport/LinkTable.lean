import Reticulum.Transport.Rewriting

/-!
# The link table

A relay that carries a link request on **records** the link under its identifier.  The row is
**validated** when a genuine proof of the request comes back (`pkg/transport/relay.go`).  When the
table is full, the oldest row that is not validated makes room, and a new row is dropped if there is
none.

A link identifier does not cover the signalling bytes of a request and a packet hash does, so a copy
of a request with other signalling bytes takes the place of a validated row
(`request_replaces_validated`).  This is the only way in which one is lost:
**`validated_stable_iff`**.
-/

namespace Reticulum

/-! ## Rows -/

def maxLinkRelayEntries : ℕ := 8192

def linkProofTimeoutPerHop : ℕ := 6 * 10 ^ 9

structure LinkRelayRow extends LinkRelayEntry where
  nextHop : Bytes
  proofTimeout : ℕ
deriving DecidableEq

/-- What the table takes from elsewhere: the hash, and the time that a packet takes on an
interface. -/
structure LinkTableEnv where
  sha : Sha256
  extraLinkProofTimeout : ℕ → ℕ

/-- The link and the row that `recordLinkRelay` makes of a request that goes on.  `outIface` is the
interface of the path. -/
def recordedRow (env : LinkTableEnv) (raw : Bytes) (recvIface : ℕ) (path : Path) (outIface : ℕ)
    (takenHops now : ℕ) : Option (Bytes × LinkRelayRow) :=
  match Packet.unpack raw with
  | .error _ => none
  | .ok fwd =>
    let linkID := fwd.linkIDFromLinkRequest env.sha
    if linkID = [] then none
    else
      let remaining := max path.hopCount.toNat 1
      some (linkID,
        { nextHop := path.nextHop, nextHopIface := outIface, receivedIface := recvIface
          remainingHops := remaining, takenHops
          destinationHash := fwd.destinationHash, validated := false
          proofTimeout := now + (linkProofTimeoutPerHop * remaining +
            env.extraLinkProofTimeout outIface)
          timestamp := now })

/-! ## The table -/

namespace LinkTable

abbrev Rows := Map Bytes LinkRelayRow

def evictable (row : LinkRelayEntry) : Bool := !row.validated

/-- Puts a row in.  `rank` is the order in which the map is visited. -/
def put (rank : Bytes → ℕ) (rows : Rows) (linkID : Bytes) (row : LinkRelayRow) : Rows :=
  Table.put maxLinkRelayEntries (evictable ∘ LinkRelayRow.toLinkRelayEntry)
    (LinkRelayEntry.timestamp ∘ LinkRelayRow.toLinkRelayEntry) rank rows
    (hash16FromSlice linkID) row

def recordLinkRelay (env : LinkTableEnv) (rank : Bytes → ℕ) (rows : Rows) (raw : Bytes)
    (recvIface : ℕ) (path : Path) (outIface takenHops now : ℕ) : Rows :=
  match recordedRow env raw recvIface path outIface takenHops now with
  | none => rows
  | some (linkID, row) => put rank rows linkID row

def markValidated (rows : Rows) (linkID : Bytes) (now : ℕ) : Rows :=
  Table.modify (fun row => { row with validated := true, timestamp := now }) rows
    (hash16FromSlice linkID)

def setRemainingHops (rows : Rows) (linkID : Bytes) (hops : ℤ) (now : ℕ) : Rows :=
  Table.modify (fun row =>
    if row.validated then row else { row with remainingHops := hops, timestamp := now }) rows
    (hash16FromSlice linkID)

def touch (rows : Rows) (linkID : Bytes) (now : ℕ) : Rows :=
  Table.modify (fun row => { row with timestamp := now }) rows (hash16FromSlice linkID)

/-- The row has expired: no proof came in time, or the link has been idle for too long. -/
def expired (maxIdle now : ℕ) (row : LinkRelayRow) : Bool :=
  if row.validated then maxIdle < now - row.timestamp else row.proofTimeout < now

def sweep (maxIdle now : ℕ) (rows : Rows) : Rows :=
  Table.keep (fun _ row => !expired maxIdle now row) rows

def references (iface : ℕ) (row : LinkRelayRow) : Bool :=
  row.nextHopIface == iface || row.receivedIface == iface

def removeEntriesReferencing (iface : ℕ) (rows : Rows) : Rows :=
  Table.keep (fun _ row => !references iface row) rows

/-- What happens to the table.  `time.Now()` and the order of the map are part of the event. -/
inductive Event where
  | recordLinkRelay (raw : Bytes) (recvIface : ℕ) (path : Path) (outIface takenHops now : ℕ)
      (rank : Bytes → ℕ)
  | put (linkID : Bytes) (row : LinkRelayRow) (rank : Bytes → ℕ)
  | markValidated (linkID : Bytes) (now : ℕ)
  | setRemainingHops (linkID : Bytes) (hops : ℤ) (now : ℕ)
  | touch (linkID : Bytes) (now : ℕ)
  | sweep (maxIdle now : ℕ)
  | removeEntriesReferencing (iface : ℕ)

def step (env : LinkTableEnv) (rows : Rows) : Event → Rows
  | .recordLinkRelay raw recvIface path outIface takenHops now rank =>
    recordLinkRelay env rank rows raw recvIface path outIface takenHops now
  | .put linkID row rank => put rank rows linkID row
  | .markValidated linkID now => markValidated rows linkID now
  | .setRemainingHops linkID hops now => setRemainingHops rows linkID hops now
  | .touch linkID now => touch rows linkID now
  | .sweep maxIdle now => sweep maxIdle now rows
  | .removeEntriesReferencing iface => removeEntriesReferencing iface rows

/-! ## Validated rows -/

/-- The rows have the same two interfaces and the same next hop, and are both validated or both
not. -/
def SameRoute (row row' : LinkRelayRow) : Prop :=
  row'.nextHopIface = row.nextHopIface ∧ row'.receivedIface = row.receivedIface ∧
    row'.nextHop = row.nextHop ∧ row'.validated = row.validated

/-- The event is one that removes the row: a sweep after it has expired, or the end of one of its
interfaces. -/
def Event.removes : Event → LinkRelayRow → Bool
  | .sweep maxIdle now, row => expired maxIdle now row
  | .removeEntriesReferencing iface, row => references iface row
  | _, _ => false

/-- **The step leaves validated rows alone**: each one keeps its route and stays validated, or is
removed by an event that is to remove it. -/
def Keeps (env : LinkTableEnv) (rows : Rows) (e : Event) : Prop :=
  ∀ key row, rows.lookup key = some row → row.validated = true →
    (∃ row', (step env rows e).lookup key = some row' ∧ SameRoute row row') ∨
      (e.removes row = true ∧ (step env rows e).lookup key = none)

def Event.inserts (env : LinkTableEnv) : Event → Option (Bytes × LinkRelayRow)
  | .recordLinkRelay raw recvIface path outIface takenHops now _ =>
    recordedRow env raw recvIface path outIface takenHops now
  | .put linkID row _ => some (linkID, row)
  | _ => none

def Full (rows : Rows) : Prop :=
  maxLinkRelayEntries ≤ rows.entries.length ∧ ∀ s ∈ rows.entries, s.2.validated = true

/-- The event does not put in a row with another route for a link whose row is validated, unless the
table has no room for any row. -/
def NotReplacing (env : LinkTableEnv) (rows : Rows) (e : Event) : Prop :=
  ∀ linkID row, e.inserts env = some (linkID, row) →
    ∀ old, rows.lookup (hash16FromSlice linkID) = some old → old.validated = true →
      Full rows ∨ SameRoute old row

/-! ## One step -/

section

variable {env : LinkTableEnv} {rows : Rows} {e : Event} {key : Bytes} {row : LinkRelayRow}

lemma SameRoute.refl (row : LinkRelayRow) : SameRoute row row := ⟨rfl, rfl, rfl, rfl⟩

lemma full_iff : Full rows ↔
    Table.Full maxLinkRelayEntries (evictable ∘ LinkRelayRow.toLinkRelayEntry) rows := by
  simp [Full, Table.Full, evictable]

lemma keeps_modify {f : LinkRelayRow → LinkRelayRow} {linkID : Bytes}
    (hf : ∀ row, row.validated → SameRoute row (f row))
    (hstep : step env rows e = Table.modify f rows (hash16FromSlice linkID)) :
    Keeps env rows e := by
  intro key row hrow hvalid
  left
  rw [hstep, Table.lookup_modify]
  split
  · rename_i heq
    rw [← heq, hrow]
    exact ⟨f row, rfl, hf row hvalid⟩
  · exact ⟨row, hrow, .refl row⟩

lemma keeps_keep (hstep : step env rows e = Table.keep (fun _ row => !e.removes row) rows) :
    Keeps env rows e := by
  intro key row hrow _
  rw [hstep, Table.lookup_keep, hrow]
  cases hremoves : e.removes row with
  | false => exact .inl ⟨row, by simp [hremoves], .refl row⟩
  | true => exact .inr ⟨rfl, by simp [hremoves]⟩

/-- **To put a row in leaves validated rows alone exactly if it does not replace one.** -/
lemma keeps_put_iff {linkID : Bytes} {rank : Bytes → ℕ} (hremoves : ∀ row, e.removes row = false)
    (hstep : step env rows e = put rank rows linkID row) : Keeps env rows e ↔
      ∀ old, rows.lookup (hash16FromSlice linkID) = some old → old.validated →
        Full rows ∨ SameRoute old row := by
  rw [full_iff]
  constructor
  · intro hkeeps old hold hvalid
    rw [or_iff_not_imp_left]
    intro hroom
    rcases hkeeps _ old hold hvalid with ⟨row', hrow', hsame⟩ | ⟨hremoved, -⟩
    · rw [hstep, put, Table.lookup_put_self hroom] at hrow'
      rw [Option.some.inj hrow']
      exact hsame
    · rw [hremoves] at hremoved
      cases hremoved
  · intro h key old hold hvalid
    left
    rw [hstep, put]
    by_cases hkey : key = hash16FromSlice linkID
    · subst hkey
      by_cases hfull : Table.Full maxLinkRelayEntries
          (evictable ∘ LinkRelayRow.toLinkRelayEntry) rows
      · rw [Table.put_of_full hfull]
        exact ⟨old, hold, .refl old⟩
      · rw [Table.lookup_put_self hfull]
        exact ⟨row, rfl, (h old hold hvalid).resolve_left hfull⟩
    · refine ⟨old, Table.lookup_put_of_ne hold ?_ hkey, .refl old⟩
      simp [evictable, hvalid]

/-- **A step leaves validated rows alone exactly if it does not replace one.** -/
lemma keeps_iff (env : LinkTableEnv) (rows : Rows) (e : Event) :
    Keeps env rows e ↔ NotReplacing env rows e := by
  -- only two of the events put a row in
  have hnone : e.inserts env = none → Keeps env rows e →
      (Keeps env rows e ↔ NotReplacing env rows e) := by
    intro hinserts hkeeps
    refine iff_of_true hkeeps fun linkID row h => ?_
    rw [hinserts] at h
    cases h
  cases e with
  | recordLinkRelay raw recvIface path outIface takenHops now rank =>
    cases hrec : recordedRow env raw recvIface path outIface takenHops now with
    | none =>
      refine hnone hrec fun key row hrow _ => .inl ⟨row, ?_, .refl row⟩
      simpa [step, recordLinkRelay, hrec] using hrow
    | some inserted =>
      rw [@keeps_put_iff env rows _ inserted.2 inserted.1 rank (fun _ => rfl)
        (by simp [step, recordLinkRelay, hrec])]
      simp only [NotReplacing, Event.inserts, hrec, Option.some.injEq]
      constructor
      · rintro h linkID row rfl
        exact h
      · intro h
        exact h inserted.1 inserted.2 rfl
  | put linkID row rank =>
    rw [keeps_put_iff (fun _ => rfl) rfl]
    simp only [NotReplacing, Event.inserts, Option.some.injEq, Prod.mk.injEq]
    constructor
    · rintro h linkID row ⟨rfl, rfl⟩
      exact h
    · intro h
      exact h linkID row ⟨rfl, rfl⟩
  | markValidated linkID now =>
    refine hnone rfl (keeps_modify (fun row hvalid => ?_) rfl)
    exact ⟨rfl, rfl, rfl, hvalid.symm⟩
  | setRemainingHops linkID hops now =>
    refine hnone rfl (keeps_modify (fun row hvalid => ?_) rfl)
    simp only [hvalid]
    exact .refl row
  | touch linkID now =>
    refine hnone rfl (keeps_modify (fun row _ => ?_) rfl)
    exact ⟨rfl, rfl, rfl, rfl⟩
  | sweep maxIdle now | removeEntriesReferencing iface => exact hnone rfl (keeps_keep rfl)

lemma length_step (env : LinkTableEnv) (rows : Rows) (e : Event)
    (h : rows.entries.length ≤ maxLinkRelayEntries) :
    (step env rows e).entries.length ≤ maxLinkRelayEntries := by
  cases e with
  | recordLinkRelay raw recvIface path outIface takenHops now rank =>
    simp only [step, recordLinkRelay]
    split
    · exact h
    · exact Table.length_put h
  | put linkID row rank => exact Table.length_put h
  | markValidated linkID now | setRemainingHops linkID hops now
  | touch linkID now => exact (Table.length_modify _ rows _).trans_le h
  | sweep maxIdle now
  | removeEntriesReferencing iface => exact (Table.length_keep_le _ rows).trans h

end

/-! ## Whole runs -/

/-- **Validated rows are stable in exactly the runs in which none is replaced**: in those, and in no
others, every step leaves every validated row its interfaces, its next hop and its validation until
it expires or its interface is removed.  The table is never over its capacity, in any run. -/
theorem validated_stable_iff (env : LinkTableEnv) (events : List Event) :
    (Run.Along (step env) (Keeps env) ∅ events ↔
        Run.Along (step env) (NotReplacing env) ∅ events) ∧
      Run.Always (step env) (fun rows => rows.entries.length ≤ maxLinkRelayEntries) ∅ events := by
  constructor
  · have hsame : Keeps env = NotReplacing env := by
      funext rows e
      exact propext (keeps_iff env rows e)
    rw [hsame]
  · exact Run.always_of_step (length_step env) (Nat.zero_le _) events

/-! ### A request with other signalling bytes -/

def checksumEnv : LinkTableEnv where
  sha := ⟨fun b => b.foldl (· + ·) 0 :: .replicate 31 0, fun _ => by simp⟩
  extraLinkProofTimeout := fun _ => 0

def alteredRequest : Bytes := requestFrame.take 83 ++ [0x20, 1, 0xF5]

def directPath : Path :=
  { nextHop := .replicate 16 9, iface := some 1, hopCount := 1, randomBlobs := []
    expires := none }

def requestedLink : Bytes := 0xD2 :: .replicate 15 0

def validatedRun : List Event :=
  [.recordLinkRelay requestFrame 0 directPath 1 1 0 fun _ => 0, .markValidated requestedLink 1]

def replacement : Event := .recordLinkRelay alteredRequest 2 directPath 1 1 2 fun _ => 0

/-- **A copy of a request with other signalling bytes replaces a validated row.**  It is another
packet for the filter and the same link for the table. -/
theorem request_replaces_validated :
    (∃ p p', Packet.unpack requestFrame = .ok p ∧ Packet.unpack alteredRequest = .ok p' ∧
      p'.getHash checksumEnv.sha ≠ p.getHash checksumEnv.sha ∧
      p'.linkIDFromLinkRequest checksumEnv.sha = p.linkIDFromLinkRequest checksumEnv.sha) ∧
    ((Run.exec (step checksumEnv) ∅ validatedRun).lookup requestedLink).map
        (fun row => (row.receivedIface, row.validated)) = some (0, true) ∧
    ((Run.exec (step checksumEnv) ∅ (validatedRun ++ [replacement])).lookup requestedLink).map
        (fun row => (row.receivedIface, row.validated)) = some (2, false) ∧
    ¬ Run.Along (step checksumEnv) (Keeps checksumEnv) ∅ (validatedRun ++ [replacement]) := by
  have hbefore : ((Run.exec (step checksumEnv) ∅ validatedRun).lookup requestedLink).map
      (fun row => (row.receivedIface, row.validated)) = some (0, true) := by decide +kernel
  have hafter : ((Run.exec (step checksumEnv) ∅ (validatedRun ++ [replacement])).lookup
      requestedLink).map (fun row => (row.receivedIface, row.validated)) = some (2, false) := by
    decide +kernel
  refine ⟨⟨_, _, rfl, rfl, by decide +kernel, by decide +kernel⟩, hbefore, hafter, ?_⟩
  intro hruns
  obtain ⟨-, hkeeps, -⟩ := (Run.along_append _ _ _ _).1 hruns
  rw [Run.exec_append, Run.exec_cons, Run.exec_nil] at hafter
  obtain ⟨row, hrow, hfields⟩ := Option.map_eq_some_iff.1 hbefore
  obtain ⟨row', hrow', hfields'⟩ := Option.map_eq_some_iff.1 hafter
  simp only [Prod.mk.injEq] at hfields hfields'
  rcases hkeeps requestedLink row hrow hfields.2 with ⟨row'', hrow'', hsame⟩ | ⟨hremoved, -⟩
  · obtain rfl := Option.some.inj (hrow'.symm.trans hrow'')
    -- the row has come from another interface
    rw [hsame.2.1, hfields.1] at hfields'
    exact absurd hfields'.1 (by decide)
  · cases hremoved

end LinkTable

/-! ## The table of the packet handler -/

namespace Transport

/-- The packet handler keeps the fields of a row that it reads. -/
def recordLinkRelay (env : LinkTableEnv) (rank : Bytes → ℕ) (t : Transport) (raw : Bytes)
    (recvIface : ℕ) (path : Path) (outIface takenHops now : ℕ) : Transport :=
  match recordedRow env raw recvIface path outIface takenHops now with
  | none => t
  | some (linkID, row) =>
    { t with
      linkTable := Table.put maxLinkRelayEntries LinkTable.evictable LinkRelayEntry.timestamp rank
        t.linkTable (hash16FromSlice linkID) row.toLinkRelayEntry }

end Transport

end Reticulum

import Reticulum.Link.Proof
import Reticulum.Link.RequestReceipt

/-!
# The life cycle of a link

A link owns two channels: **`linkDone`**, which is made with the link, and **`watchdogDone`**, which
every watchdog makes anew.  `closeOnce` closes both and fails the pending requests
(`pkg/link/link.go`).  Closing a channel twice is a panic.

Two functions go past it: `markInitiatorEstablishmentFailedLocked` sets the status to *closed* and
leaves the rest alone, and `Reestablish` sets a closed link back to *pending* with its channels
closed (`reestablished_closed_twice`).  In all other runs the channels, the status and the requests
agree (**`wellClosed_iff`**).  `Establish` releases the lock to send the request, so it is two
events.
-/

namespace Reticulum

/-! ## Requests that fail with the link -/

namespace RequestLink

/-- `failPendingRequest` as one call: the receipt is failed, and taken off the list. -/
def failPendingRequest (l : RequestLink) (r : ℕ) : RequestLink :=
  Run.exec step l [.failure r, .run l.tasks.length, .run l.tasks.length]

def failAllPendingRequests (l : RequestLink) : RequestLink :=
  l.pendingRequests.foldl failPendingRequest l

def IsConcluded (l : RequestLink) (r : ℕ) : Prop :=
  ∃ req, l.receipts[r]? = some req ∧ req.status.Concluded

variable {l : RequestLink} {r : ℕ}

lemma IsConcluded.exec (h : l.IsConcluded r) (events : List RequestEvent) :
    (Run.exec step l events).IsConcluded r := by
  obtain ⟨req, hreq, hconcluded⟩ := h
  obtain ⟨req', hreq', hstatus⟩ := status_final hconcluded events l hreq
  exact ⟨req', hreq', hstatus ▸ hconcluded⟩

lemma Listed.exec (h : l.Listed) (events : List RequestEvent) :
    (Run.exec .step l events).Listed := by
  induction events generalizing l with
  | nil => exact h
  | cons e events ih => exact ih (h.step e)

lemma length_receipts_exec (l : RequestLink) (events : List RequestEvent) :
    l.receipts.length ≤ (Run.exec step l events).receipts.length := by
  induction events generalizing l with
  | nil => exact le_refl _
  | cons e events ih => exact (length_receipts_step l e).trans (ih (l.step e))

lemma isConcluded_concludeWith_fail (hr : r < l.receipts.length) :
    (l.concludeWith r .fail).IsConcluded r := by
  have hreq : l.receipts[r]? = some l.receipts[r] := List.getElem?_eq_getElem hr
  simp only [concludeWith, hreq]
  split
  · rename_i hconcluded
    exact ⟨_, hreq, hconcluded⟩
  · exact ⟨l.receipts[r].fail, List.getElem?_set_self hr, trivial⟩

lemma isConcluded_failPendingRequest (hr : r < l.receipts.length) :
    (l.failPendingRequest r).IsConcluded r := by
  -- the task that was added last is done first
  have hrun : (l.step (.failure r)).step (.run l.tasks.length) =
      l.concludeWith r .fail := by
    simp [step, addTasks, runTask, List.eraseIdx_append_of_length_le]
  show (Run.exec step ((l.step (.failure r)).step (.run l.tasks.length)) _).IsConcluded r
  rw [hrun]
  exact (isConcluded_concludeWith_fail hr).exec _

lemma IsConcluded.foldl (rs : List ℕ) (h : l.IsConcluded r) :
    (rs.foldl failPendingRequest l).IsConcluded r := by
  induction rs generalizing l with
  | nil => exact h
  | cons r' rs ih => exact ih (h.exec _)

lemma isConcluded_foldl (rs : List ℕ) (hrs : ∀ r ∈ rs, r < l.receipts.length) :
    ∀ r ∈ rs, (rs.foldl failPendingRequest l).IsConcluded r := by
  induction rs generalizing l with
  | nil => nofun
  | cons r' rs ih =>
    intro r hr
    rcases List.mem_cons.1 hr with rfl | hr
    · exact (isConcluded_failPendingRequest (hrs r List.mem_cons_self)).foldl rs
    · refine ih (fun r hr => ?_) r hr
      exact (hrs r (List.mem_cons_of_mem r' hr)).trans_le (length_receipts_exec l _)

/-- **When all pending requests have failed, they are concluded.** -/
lemma Listed.failAll_concluded (h : l.Listed) :
    ∀ r ∈ l.pendingRequests, l.failAllPendingRequests.IsConcluded r :=
  isConcluded_foldl l.pendingRequests h.lt_length

lemma Listed.failAll (h : l.Listed) : l.failAllPendingRequests.Listed := by
  have hfold (rs : List ℕ) : (rs.foldl failPendingRequest l).Listed := by
    induction rs generalizing l with
    | nil => exact h
    | cons r rs ih => exact ih (h.exec _)
  exact hfold l.pendingRequests

end RequestLink

/-! ## The link -/

/-- The link, with the channels that are closed and a count of the calls under way: those of
`Establish` that send, and the watchdogs that are about to start.  `pendingAtClose` are the requests
that were pending when the link was last closed. -/
structure LifeLink where
  status : LinkStatus
  teardownReason : LinkStatus
  initiator : Bool
  requestTime : Option ℕ
  linkID : Bytes
  hasDestination : Bool
  hasTransport : Bool
  linkDone : ℕ
  watchdogDone : Option ℕ
  watchdogActive : Bool
  closedChannels : List ℕ
  nextChannel : ℕ
  panicked : Bool
  sending : ℕ
  startingWatchdogs : ℕ
  requests : RequestLink
  pendingAtClose : List ℕ
deriving DecidableEq

inductive EstablishError where
  | alreadySettled
  | establishBusy
  | destinationRequired
  | transportRequired
  | noPath
  | outbound (err : String)
  | prepare (err : String)
deriving DecidableEq

/-- What `Establish` meets: whether there is a path, whether another establishment to the
destination is under way, and the link identity of the request, if it can be prepared. -/
structure EstablishAttempt where
  now : ℕ
  hasPath : Bool
  outboundError : Option String
  prepared : Except String Bytes

/-- What the validation of a proof does to a link that waits for it. -/
inductive ProofOutcome where
  | established
  | refused
  | failed
deriving DecidableEq

inductive LifeEvent where
  | establish (attempt : EstablishAttempt)
  /-- `Establish` has sent the request, or has not been able to -/
  | requestSent (sent : Bool)
  | startWatchdog
  | proof (outcome : ProofOutcome)
  | teardown
  | remoteTeardown (plaintext : Bytes)
  /-- the watchdog finds the establishment timed out, or the link stale -/
  | watchdogClose
  /-- the watchdog hears nothing from the peer -/
  | watchdogStale
  /-- the loop of the watchdog ends -/
  | watchdogExit
  /-- a packet of the peer arrives -/
  | traffic
  | reestablish (attempt : EstablishAttempt)
  /-- something happens to the requests -/
  | request (e : RequestEvent)

namespace LifeLink

def new (hasDestination hasTransport : Bool) : LifeLink where
  status := .pending
  teardownReason := .pending
  initiator := false
  requestTime := none
  linkID := []
  hasDestination
  hasTransport
  linkDone := 0
  watchdogDone := none
  watchdogActive := false
  closedChannels := []
  nextChannel := 1
  panicked := false
  sending := 0
  startingWatchdogs := 0
  requests := .empty
  pendingAtClose := []

/-! ## Closing -/

section

variable (l : LifeLink)

def closeChannel (ch : ℕ) : LifeLink :=
  if l.panicked then l
  else if ch ∈ l.closedChannels then { l with panicked := true }
  else { l with closedChannels := ch :: l.closedChannels }

def closeWatchdogDone : LifeLink :=
  match l.watchdogDone with
  | none => l
  | some ch => l.closeChannel ch

def setClosed (reason : LinkStatus) : LifeLink :=
  { l with
    status := .closed
    teardownReason := reason
    pendingAtClose :=
      if l.status = .closed then l.pendingAtClose else l.requests.pendingRequests }

def closeOnce (reason : LinkStatus) : LifeLink :=
  if l.status = .closed then l
  else
    let l := ((l.setClosed reason).closeWatchdogDone).closeChannel l.linkDone
    if l.panicked then l else { l with requests := l.requests.failAllPendingRequests }

def markInitiatorEstablishmentFailedLocked : LifeLink :=
  if !l.initiator then l else l.setClosed .failed

/-! ## Establishing -/

def establish (attempt : EstablishAttempt) : LifeLink × Option EstablishError :=
  if l.status ≠ .pending then (l, some .alreadySettled)
  else if l.requestTime.isSome then (l, some .establishBusy)
  else if !l.hasDestination then (l, some .destinationRequired)
  else if !l.hasTransport then (l, some .transportRequired)
  else if !attempt.hasPath then (l, some .noPath)
  else
    match attempt.outboundError with
    | some err => (l, some (.outbound err))
    | none =>
      let l := { l with initiator := true, status := .pending, requestTime := some attempt.now }
      match attempt.prepared with
      | .error err => ({ l with requestTime := none }, some (.prepare err))
      | .ok linkID => ({ l with linkID, sending := l.sending + 1 }, none)

def requestSent (sent : Bool) : LifeLink :=
  if l.sending = 0 then l
  else
    let l := { l with sending := l.sending - 1 }
    if sent then { l with startingWatchdogs := l.startingWatchdogs + 1 }
    else l.markInitiatorEstablishmentFailedLocked

def resetForReconnectLocked : LifeLink :=
  { l with status := .pending, requestTime := none, teardownReason := .pending, linkID := [] }

def reestablish (attempt : EstablishAttempt) : LifeLink × Option EstablishError :=
  if l.status = .pending ∨ l.status = .handshake ∨ l.status = .active then
    (l, some .alreadySettled)
  else l.resetForReconnectLocked.establish attempt

def validateProof (outcome : ProofOutcome) : LifeLink :=
  if l.initiator ∧ (l.status = .pending ∨ l.status = .handshake) then
    match outcome with
    | .established => { l with status := .active }
    | .refused => l
    | .failed => l.markInitiatorEstablishmentFailedLocked
  else l

/-! ## The watchdog -/

def startWatchdog : LifeLink :=
  if l.startingWatchdogs = 0 then l
  else
    let l := { l with startingWatchdogs := l.startingWatchdogs - 1 }
    if l.watchdogActive then l
    else { l with
      watchdogActive := true
      watchdogDone := some l.nextChannel
      nextChannel := l.nextChannel + 1 }

def finishWatchdogClose : LifeLink :=
  if l.watchdogActive ∧ (l.status = .pending ∨ l.status = .handshake ∨ l.status = .stale) then
    l.closeOnce .failed
  else l

def watchdogStale : LifeLink :=
  if l.watchdogActive ∧ l.status = .active then { l with status := .stale } else l

def watchdogExit : LifeLink :=
  if l.status = .closed ∨ ∃ ch ∈ l.watchdogDone, ch ∈ l.closedChannels then
    { l with watchdogActive := false }
  else l

def handleTeardown (plaintext : Bytes) : LifeLink :=
  if plaintext = l.linkID then l.closeOnce .failed else l

def handle : LifeEvent → LifeLink
  | .establish attempt => (l.establish attempt).1
  | .requestSent sent => l.requestSent sent
  | .startWatchdog => l.startWatchdog
  | .proof outcome => l.validateProof outcome
  | .teardown => l.closeOnce .closed
  | .remoteTeardown plaintext => l.handleTeardown plaintext
  | .watchdogClose => l.finishWatchdogClose
  | .watchdogStale => l.watchdogStale
  | .watchdogExit => l.watchdogExit
  | .traffic => if l.status = .stale then { l with status := .active } else l
  | .reestablish attempt => (l.reestablish attempt).1
  | .request e => { l with requests := l.requests.step e }

def step (e : LifeEvent) : LifeLink := if l.panicked then l else l.handle e

end

/-! ## What is claimed of closing -/

/-- No channel is closed twice, `linkDone` is closed if and only if the link is, and the requests
that were pending when the link was closed are concluded. -/
structure WellClosed (l : LifeLink) : Prop where
  not_panicked : l.panicked = false
  linkDone_iff : l.linkDone ∈ l.closedChannels ↔ l.status = .closed
  concluded : l.status = .closed → ∀ r ∈ l.pendingAtClose, l.requests.IsConcluded r

/-- Establishments fail only when the link is closed already, and a closed link is not established
again. -/
def Orderly (l : LifeLink) : LifeEvent → Prop
  | .requestSent false => ¬ (0 < l.sending ∧ l.initiator = true ∧ l.status ≠ .closed)
  | .proof .failed => ¬ (l.initiator = true ∧ (l.status = .pending ∨ l.status = .handshake))
  | .reestablish _ => l.status ≠ .closed
  | _ => True

/-! ## The invariant -/

/-- What an orderly run keeps: besides, the channel of the watchdog is open until the link is
closed, and every channel that is in use or closed was made. -/
structure Inv (l : LifeLink) : Prop extends WellClosed l where
  watchdogDone_open : l.status ≠ .closed → ∀ ch ∈ l.watchdogDone, ch ∉ l.closedChannels
  watchdogDone_ne : ∀ ch ∈ l.watchdogDone, ch ≠ l.linkDone
  watchdogDone_lt : ∀ ch ∈ l.watchdogDone, ch < l.nextChannel
  linkDone_lt : l.linkDone < l.nextChannel
  closed_lt : ∀ ch ∈ l.closedChannels, ch < l.nextChannel
  listed : l.requests.Listed

structure SameChannels (l l' : LifeLink) : Prop where
  panicked : l'.panicked = l.panicked := by rfl
  linkDone : l'.linkDone = l.linkDone := by rfl
  watchdogDone : l'.watchdogDone = l.watchdogDone := by rfl
  closedChannels : l'.closedChannels = l.closedChannels := by rfl
  nextChannel : l'.nextChannel = l.nextChannel := by rfl
  requests : l'.requests = l.requests := by rfl
  pendingAtClose : l'.pendingAtClose = l.pendingAtClose := by rfl

section

variable {l l' : LifeLink}

lemma Inv.of_same (h : l.Inv) (hsame : SameChannels l l')
    (hstatus : l'.status = .closed ↔ l.status = .closed) : l'.Inv where
  not_panicked := hsame.panicked.trans h.not_panicked
  linkDone_iff := by
    rw [hsame.linkDone, hsame.closedChannels, hstatus]
    exact h.linkDone_iff
  concluded := by
    rw [hsame.pendingAtClose, hsame.requests, hstatus]
    exact h.concluded
  watchdogDone_open := by
    rw [hsame.watchdogDone, hsame.closedChannels, ne_eq, hstatus]
    exact h.watchdogDone_open
  watchdogDone_ne := by
    rw [hsame.watchdogDone, hsame.linkDone]
    exact h.watchdogDone_ne
  watchdogDone_lt := by
    rw [hsame.watchdogDone, hsame.nextChannel]
    exact h.watchdogDone_lt
  linkDone_lt := by
    rw [hsame.linkDone, hsame.nextChannel]
    exact h.linkDone_lt
  closed_lt := by
    rw [hsame.closedChannels, hsame.nextChannel]
    exact h.closed_lt
  listed := hsame.requests ▸ h.listed

lemma Inv.new (hasDestination hasTransport : Bool) : (new hasDestination hasTransport).Inv where
  not_panicked := rfl
  linkDone_iff := by simp [LifeLink.new]
  concluded := by nofun
  watchdogDone_open _ := by nofun
  watchdogDone_ne := by nofun
  watchdogDone_lt := by nofun
  linkDone_lt := zero_lt_one
  closed_lt := by nofun
  listed := ⟨List.nodup_nil, by nofun, by nofun⟩

/-! ## Closing keeps the invariant -/

lemma closeWatchdogDone_setClosed (h : l.Inv) (hopen : l.status ≠ .closed) (reason : LinkStatus) :
    (l.setClosed reason).closeWatchdogDone =
      { l.setClosed reason with
        closedChannels := l.watchdogDone.toList ++ l.closedChannels } := by
  have hpanicked : (l.setClosed reason).panicked = false := h.not_panicked
  unfold closeWatchdogDone
  cases hw : l.watchdogDone with
  | none => simp [setClosed, hw]
  | some ch =>
    have hch : ch ∉ (l.setClosed reason).closedChannels := h.watchdogDone_open hopen ch hw
    simp only [setClosed, hw] at hpanicked hch ⊢
    simp [closeChannel, hpanicked, hch]

/-- **What `closeOnce` does to a link that is not closed**: both channels are closed, and the
pending requests fail. -/
lemma closeOnce_eq (h : l.Inv) (hopen : l.status ≠ .closed) (reason : LinkStatus) :
    l.closeOnce reason =
      { l.setClosed reason with
        closedChannels := l.linkDone :: (l.watchdogDone.toList ++ l.closedChannels)
        requests := l.requests.failAllPendingRequests } := by
  have hpanicked : (l.setClosed reason).panicked = false := h.not_panicked
  have hlinkDone : l.linkDone ∉ l.watchdogDone.toList ++ l.closedChannels := by
    intro hmem
    rcases List.mem_append.1 hmem with hw | hc
    · exact h.watchdogDone_ne l.linkDone (Option.mem_toList.1 hw) rfl
    · exact hopen (h.linkDone_iff.1 hc)
  simp only [closeOnce, hopen, closeWatchdogDone_setClosed h hopen, closeChannel, hpanicked,
    hlinkDone]
  rfl

lemma Inv.closeOnce (h : l.Inv) (reason : LinkStatus) : (l.closeOnce reason).Inv := by
  by_cases hclosed : l.status = .closed
  · simpa [LifeLink.closeOnce, hclosed] using h
  rw [closeOnce_eq h hclosed]
  have hmem {ch : ℕ} (hch : ch ∈ l.linkDone :: (l.watchdogDone.toList ++ l.closedChannels)) :
      ch < l.nextChannel := by
    rcases List.mem_cons.1 hch with rfl | hch
    · exact h.linkDone_lt
    · rcases List.mem_append.1 hch with hw | hc
      · exact h.watchdogDone_lt ch (Option.mem_toList.1 hw)
      · exact h.closed_lt ch hc
  refine ⟨⟨h.not_panicked, ?_, ?_⟩, ?_, h.watchdogDone_ne, h.watchdogDone_lt, h.linkDone_lt,
    fun ch hch => hmem hch, h.listed.failAll⟩
  · exact iff_of_true List.mem_cons_self rfl
  · intro _ r hr
    simp only [setClosed, hclosed] at hr
    exact h.listed.failAll_concluded r hr
  · exact fun hopen => absurd rfl hopen

/-! ## The other steps -/

lemma establish_same (l : LifeLink) (attempt : EstablishAttempt) :
    SameChannels l (l.establish attempt).1 := by
  unfold establish
  repeat' split
  all_goals exact {}

lemma establish_status (l : LifeLink) (attempt : EstablishAttempt) :
    (l.establish attempt).1.status = l.status := by
  unfold establish
  split
  · rfl
  · rename_i hpending
    have hstatus : l.status = .pending := not_not.1 hpending
    repeat' split
    all_goals first | rfl | exact hstatus.symm

section

variable (h : l.Inv)
include h

lemma Inv.establish (attempt : EstablishAttempt) : (l.establish attempt).1.Inv := by
  refine h.of_same (establish_same l attempt) ?_
  rw [establish_status]

lemma Inv.reestablish (hopen : l.status ≠ .closed) (attempt : EstablishAttempt) :
    (l.reestablish attempt).1.Inv := by
  unfold LifeLink.reestablish
  split
  · exact h
  · have hreset : l.resetForReconnectLocked.Inv := by
      refine h.of_same {} ?_
      exact iff_of_false (by nofun) hopen
    exact hreset.establish attempt

lemma Inv.startWatchdog : l.startWatchdog.Inv := by
  have hfresh : l.nextChannel ∉ l.closedChannels := fun hmem =>
    lt_irrefl _ (h.closed_lt _ hmem)
  unfold LifeLink.startWatchdog
  split
  · exact h
  dsimp only
  split
  · exact h.of_same {} .rfl
  · -- the new channel is none of the old ones
    refine ⟨{ h with }, ?_, ?_, ?_, ?_, ?_, h.listed⟩
    · intro _ ch hch
      obtain rfl := Option.some.inj hch
      exact hfresh
    · intro ch hch
      obtain rfl := Option.some.inj hch
      exact ne_of_gt h.linkDone_lt
    · intro ch hch
      obtain rfl := Option.some.inj hch
      exact Nat.lt_succ_self _
    · exact Nat.lt_succ_of_lt h.linkDone_lt
    · intro ch hch
      exact Nat.lt_succ_of_lt (h.closed_lt ch hch)

lemma Inv.markFailed (hclosed : l.initiator → l.status = .closed) :
    l.markInitiatorEstablishmentFailedLocked.Inv := by
  unfold markInitiatorEstablishmentFailedLocked
  split
  · exact h
  · rename_i hinit
    have hstatus := hclosed (by simpa using hinit)
    refine h.of_same { pendingAtClose := ?_ } (iff_of_true rfl hstatus)
    simp [setClosed, hstatus]

lemma Inv.requestSent (sent : Bool) (hok : l.Orderly (.requestSent sent)) :
    (l.requestSent sent).Inv := by
  have h' : ({ l with sending := l.sending - 1 } : LifeLink).Inv :=
    h.of_same {} .rfl
  unfold LifeLink.requestSent
  split
  · exact h
  · rename_i hsending
    cases sent with
    | true => exact h.of_same {} .rfl
    | false =>
      refine h'.markFailed fun hinit => ?_
      by_contra hopen
      exact hok ⟨Nat.pos_of_ne_zero hsending, hinit, hopen⟩

lemma Inv.validateProof (outcome : ProofOutcome) (hok : l.Orderly (.proof outcome)) :
    (l.validateProof outcome).Inv := by
  unfold LifeLink.validateProof
  split
  · rename_i hwaiting
    cases outcome with
    | established =>
      refine h.of_same {} (iff_of_false (by nofun) ?_)
      rcases hwaiting.2 with hs | hs <;> rw [hs] <;> nofun
    | refused => exact h
    | failed => exact absurd hwaiting hok
  · exact h

lemma Inv.request (e : RequestEvent) : ({ l with requests := l.requests.step e } : LifeLink).Inv :=
  { h with
    concluded := fun hclosed r hr => (h.concluded hclosed r hr).exec [e]
    listed := h.listed.step e }

lemma Inv.step_eq (e : LifeEvent) : l.step e = l.handle e := by
  simp [step, h.not_panicked]

lemma Inv.step {e : LifeEvent} (he : l.Orderly e) : (l.step e).Inv := by
  rw [h.step_eq]
  cases e with
  | establish attempt => exact h.establish attempt
  | requestSent sent => exact h.requestSent sent he
  | startWatchdog => exact h.startWatchdog
  | proof outcome => exact h.validateProof outcome he
  | teardown => exact h.closeOnce .closed
  | remoteTeardown plaintext =>
    simp only [handle, handleTeardown]
    split
    · exact h.closeOnce .failed
    · exact h
  | watchdogClose =>
    simp only [handle, finishWatchdogClose]
    split
    · exact h.closeOnce .failed
    · exact h
  | watchdogStale =>
    simp only [handle, watchdogStale]
    split
    · rename_i hactive
      refine h.of_same {} (iff_of_false (by nofun) ?_)
      rw [hactive.2]
      nofun
    · exact h
  | watchdogExit =>
    simp only [handle, watchdogExit]
    split
    · exact h.of_same {} .rfl
    · exact h
  | traffic =>
    simp only [handle]
    split
    · rename_i hstale
      refine h.of_same {} (iff_of_false (by nofun) ?_)
      rw [hstale]
      nofun
    · exact h
  | reestablish attempt => exact h.reestablish he attempt
  | request e => exact h.request e

/-! ## Steps that are not orderly -/

lemma Inv.not_wellClosed_markFailed (hinit : l.initiator)
    (hopen : l.status ≠ .closed) : ¬ l.markInitiatorEstablishmentFailedLocked.WellClosed := by
  intro hwell
  have hiff := hwell.linkDone_iff
  simp only [markInitiatorEstablishmentFailedLocked, hinit, Bool.not_true, Bool.false_eq_true,
    if_false, setClosed, iff_true] at hiff
  exact hopen (h.linkDone_iff.1 hiff)

lemma Inv.not_wellClosed_reestablish (hclosed : l.status = .closed)
    (attempt : EstablishAttempt) : ¬ (l.reestablish attempt).1.WellClosed := by
  intro hwell
  have hre : l.reestablish attempt = l.resetForReconnectLocked.establish attempt := by
    simp [LifeLink.reestablish, hclosed]
  rw [hre] at hwell
  have hsame := establish_same l.resetForReconnectLocked attempt
  have hiff := hwell.linkDone_iff
  rw [hsame.linkDone, hsame.closedChannels, establish_status] at hiff
  cases hiff.1 (h.linkDone_iff.2 hclosed)

lemma Inv.not_wellClosed {e : LifeEvent} (he : ¬ l.Orderly e) : ¬ (l.step e).WellClosed := by
  rw [h.step_eq]
  cases e with
  | requestSent sent =>
    cases sent with
    | true => exact absurd trivial he
    | false =>
      obtain ⟨hsending, hinit, hopen⟩ := not_not.1 he
      have h' : ({ l with sending := l.sending - 1 } : LifeLink).Inv :=
        h.of_same {} .rfl
      simp only [handle, LifeLink.requestSent, ne_of_gt hsending, if_false]
      exact h'.not_wellClosed_markFailed hinit hopen
  | proof outcome =>
    cases outcome with
    | failed =>
      have hwaiting := not_not.1 he
      have hopen : l.status ≠ .closed := by
        rcases hwaiting.2 with hs | hs <;> rw [hs] <;> nofun
      simp only [handle, LifeLink.validateProof, hwaiting]
      exact h.not_wellClosed_markFailed hwaiting.1 hopen
    | _ => exact absurd trivial he
  | reestablish attempt => exact h.not_wellClosed_reestablish (not_not.1 he) attempt
  | _ => exact absurd trivial he

end

end

/-- **A link is well closed** — no channel is closed twice, `linkDone` is closed just as long as the
link is, and the requests that were pending are concluded — in every state of a run *exactly* if no
establishment of the run fails before the link is closed, and no closed link is established
again. -/
theorem wellClosed_iff (hasDestination hasTransport : Bool) (events : List LifeEvent) :
    Run.Always step WellClosed (new hasDestination hasTransport) events ↔
      Run.Along step Orderly (new hasDestination hasTransport) events := by
  refine Run.always_iff_along (I := Inv) ?_ ?_ ?_ (.new hasDestination hasTransport)
  · intro l h
    exact h.toWellClosed
  · intro l e h he
    exact h.step he
  · intro l e h he
    exact h.not_wellClosed he

def goodAttempt : EstablishAttempt := ⟨1, true, none, .ok [9]⟩

def reestablishedRun : List LifeEvent :=
  [.establish goodAttempt, .requestSent true, .startWatchdog, .proof .established, .teardown,
    .watchdogExit, .reestablish goodAttempt, .requestSent true, .startWatchdog, .teardown]

def unsentRequest : List LifeEvent := [.establish goodAttempt, .requestSent false]

/-- **A link that is established again and closed again closes `linkDone` twice, and one whose
request cannot be sent is closed without closing it.** -/
theorem reestablished_closed_twice :
    (Run.exec step (new true true) reestablishedRun).panicked = true ∧
      (Run.exec step (new true true) unsentRequest).status = .closed ∧
      (Run.exec step (new true true) unsentRequest).closedChannels = [] ∧
      ¬ Run.Always step WellClosed (new true true) reestablishedRun ∧
      ¬ Run.Always step WellClosed (new true true) unsentRequest := by
  have hpanicked : (Run.exec step (new true true) reestablishedRun).panicked = true := by decide
  have hclosed : (Run.exec step (new true true) unsentRequest).status = .closed := by decide
  have hnil : (Run.exec step (new true true) unsentRequest).closedChannels = [] := by decide
  refine ⟨hpanicked, hclosed, hnil, fun h => ?_, fun h => ?_⟩
  · cases hpanicked.symm.trans h.last.not_panicked
  · have hmem := h.last.linkDone_iff.2 hclosed
    cases hmem

/-! ## Proofs -/

/-- **The validation of a proof is an event of the life cycle**: whatever it does to the status,
some outcome does. -/
theorem validate_refines (env : ProofSurroundings) (attempt : ProofAttempt) (pl : PendingLink)
    (proof : LinkProof) (l : LifeLink) (hinit : l.initiator = pl.initiator)
    (hstatus : l.status = pl.status) :
    ∃ outcome, (l.validateProof outcome).status =
      (pl.validateLinkProofLocked env attempt proof).1.status := by
  rcases pl.validate_status env attempt proof with hsame | ⟨⟨hpl, hwaiting⟩, hclosed | hactive⟩
  · refine ⟨.refused, ?_⟩
    rw [hsame, ← hstatus]
    unfold validateProof
    split <;> rfl
  · refine ⟨.failed, ?_⟩
    rw [← hstatus] at hwaiting
    rw [hclosed]
    simp [validateProof, hinit, hpl, hwaiting, markInitiatorEstablishmentFailedLocked, setClosed]
  · refine ⟨.established, ?_⟩
    rw [← hstatus] at hwaiting
    rw [hactive]
    simp [validateProof, hinit, hpl, hwaiting]

end LifeLink

end Reticulum

import Reticulum.Link.LifeCycle

/-!
# The state machine of a link

The status of a link is an atomic word with many writers (`pkg/link/link.go`, `link_handshake.go`,
`link_proof.go`).  Most of them hold the lock of the link.  The goroutine that drains the inbound
queue does not when it closes the link for a teardown packet, or makes it *active* for an RTT
packet; so these compare and swap, but `performHandshakeLocked`, `Establish` and
`resetForReconnectLocked` simply store.

A step is one access to the status, or a section under the lock with one access.  The link is `Safe`
if no packet is being handled when it is reset or taken up by `Establish`
(**`safe_of_undisturbed`**); otherwise it may not be (**`lateHandlers_unsafe`**).
-/

namespace Reticulum

/-! ## The machine -/

inductive StatusWriter where
  | handshake
  | establish
  | proof
  | rtt
  | inbound
  | teardown
  | watchdog
  | reestablish
deriving DecidableEq

structure StatusChange where
  before : LinkStatus
  after : LinkStatus
  writer : StatusWriter
deriving DecidableEq

/-- Who holds the lock of the link across several accesses to the status, by what is to come next:

* `validating` — a proof passed the check of the status, and is read, checked, and keys are derived;
* `derived` — the keys are there, and the status becomes *handshake*;
* `shaken` — the link is promoted;
* `promoted` — the callback is invoked;
* `establishing` — `Establish` has found the link *pending*, and takes it up;
* `preparing` — the link request is prepared;
* `resetting` — `Reestablish` has found the link not to be alive, and resets it. -/
inductive LockPhase where
  | free
  | validating
  | derived
  | shaken
  | promoted
  | establishing
  | preparing
  | resetting
deriving DecidableEq

/-- Inbound packets: those of the RTT, which come as data and as proofs, and teardowns. -/
inductive LinkPacket where
  | rtt (proof : Bool)
  | linkClose
  | other
deriving DecidableEq

/-- Where the drainer is, by what is to come next: for an RTT packet it reads whether the link is
the initiator (`rtt`), reads the status (`responder`), decrypts, takes down the time (`measured`),
promotes the link and invokes the callback (`promoted`); for a teardown it decrypts (`admitted`),
compares the link identity (`opened`) and closes. -/
inductive DrainPhase where
  | idle
  | received (p : LinkPacket)
  | rtt
  | responder
  | decrypting
  | measured
  | promoting
  | promoted
  | admitted
  | opened
  | closing
deriving DecidableEq

/-- The link.  `establishment` counts the resets, and `keys` has the establishment whose session
keys are held.  `changes` and `callbacks` record what happened; a callback is recorded with its
establishment.  A link is `shared` when others than its maker can know it. -/
structure LinkMachine where
  status : LinkStatus
  initiator : Bool
  keys : Option ℕ
  establishment : ℕ
  requested : Bool
  shared : Bool
  lock : LockPhase
  drain : DrainPhase
  changes : List StatusChange
  callbacks : List ℕ
deriving DecidableEq

namespace LinkMachine

def new : LinkMachine where
  status := .pending
  initiator := false
  keys := none
  establishment := 0
  requested := false
  shared := false
  lock := .free
  drain := .idle
  changes := []
  callbacks := []

section

variable (s : LinkMachine)

def write (status : LinkStatus) (writer : StatusWriter) : LinkMachine :=
  { s with status, changes := s.changes ++ [⟨s.status, status, writer⟩] }

def closeOnce (writer : StatusWriter) : LinkMachine :=
  if s.status = .closed then s else s.write .closed writer

def promoteToActive (writer : StatusWriter) : LinkMachine × Bool :=
  match s.status with
  | .active => (s, true)
  | .handshake | .pending | .stale => (s.write .active writer, true)
  | .closed | .failed => (s, false)

def markInitiatorEstablishmentFailedLocked : LinkMachine :=
  if !s.initiator then s else s.write .closed .establish

def establishedCallback : LinkMachine :=
  { s with callbacks := s.callbacks ++ [s.establishment] }

/-- `HandleLinkRequest`, on a link that has just been made: the keys are derived and the status
becomes *handshake* before the link is registered. -/
def handleLinkRequest (ok : Bool) : LinkMachine :=
  if s.shared then s
  else if ok then
    { (s.write .handshake .handshake).write .handshake .handshake with
      keys := some s.establishment, shared := true }
  else { s with shared := true }

/-- The next step of whoever holds the lock.  `ok` says that what is tried succeeds, and `fatal`
that the establishment fails otherwise. -/
def lockStep (ok fatal : Bool) : LinkMachine :=
  match s.lock with
  | .free => s
  | .validating =>
    if ok then { s with keys := some s.establishment, lock := .derived }
    else if fatal then { s.markInitiatorEstablishmentFailedLocked with lock := .free }
    else { s with lock := .free }
  | .derived => { s.write .handshake .proof with lock := .shaken }
  | .shaken =>
    if (s.promoteToActive .proof).2 then { (s.promoteToActive .proof).1 with lock := .promoted }
    else { s.markInitiatorEstablishmentFailedLocked with lock := .free }
  | .promoted =>
    if ok then { s.establishedCallback with lock := .free } else { s with lock := .free }
  | .establishing =>
    { s.write .pending .establish with initiator := true, requested := true, lock := .preparing }
  | .preparing =>
    if ok then { s.write .pending .establish with lock := .free }
    else { s with requested := false, lock := .free }
  | .resetting =>
    { s.write .pending .reestablish with
      keys := none
      establishment := s.establishment + 1
      requested := false
      lock := .free }

/-- The next step of the drainer.  `ok` says that the packet is one that decrypts, or that a
teardown names the link.  Keys are read, and times taken down, under the lock. -/
def drainStep (ok : Bool) : LinkMachine :=
  match s.drain with
  | .idle => s
  | .received (.rtt true) => { s with drain := .rtt }
  | .received p =>
    if s.status ≠ .active ∧ s.status ≠ .handshake then { s with drain := .idle }
    else { s with drain := if p = .linkClose then .admitted else .rtt }
  | .rtt => { s with drain := if s.initiator then .idle else .responder }
  | .responder => { s with drain := if s.status = .handshake then .decrypting else .idle }
  | .decrypting =>
    if s.lock ≠ .free then s
    else { s with drain := if s.keys ≠ none ∧ ok = true then .measured else .idle }
  | .measured => if s.lock ≠ .free then s else { s with drain := .promoting }
  | .promoting =>
    if (s.promoteToActive .rtt).2 then { (s.promoteToActive .rtt).1 with drain := .promoted }
    else { s with drain := .idle }
  | .promoted => { s.establishedCallback with drain := .idle }
  | .admitted =>
    if s.lock ≠ .free then s
    else { s with drain := if s.keys ≠ none ∧ ok = true then .opened else .idle }
  | .opened => { s with drain := if ok then .closing else .idle }
  | .closing => { s.closeOnce .teardown with drain := .idle }

/-- The drainer takes up a packet.  A packet for a stale link makes it active. -/
def receive (p : LinkPacket) : LinkMachine :=
  if s.drain ≠ .idle ∨ s.status = .closed then s
  else
    { (if s.status = .stale then s.write .active .inbound else s) with
      drain := if p = .other then .idle else .received p }

/-- What can happen.  `requestFailed` is the end of an `Establish` that could not send its request.
-/
inductive Event where
  | linkRequest (ok : Bool)
  | establish (admitted : Bool)
  | proof
  | requestFailed
  | teardown
  | watchdogClose
  | watchdogStale
  | reestablish
  | packet (p : LinkPacket)
  | lockStep (ok fatal : Bool)
  | drainStep (ok : Bool)
deriving DecidableEq

/-- A call takes the lock, does what it does with one access to the status, and goes on holding the
lock or releases it. -/
def locked : Event → LinkMachine
  | .establish admitted =>
    if s.status = .pending ∧ s.requested = false ∧ admitted = true then
      { s with lock := .establishing }
    else s
  | .proof =>
    if s.initiator = true ∧ (s.status = .pending ∨ s.status = .handshake) then
      { s with lock := .validating }
    else s
  | .requestFailed => s.markInitiatorEstablishmentFailedLocked
  | .teardown => s.closeOnce .teardown
  | .watchdogClose => s.closeOnce .watchdog
  | .watchdogStale => if s.status = .active then s.write .stale .watchdog else s
  | .reestablish =>
    if s.status = .pending ∨ s.status = .handshake ∨ s.status = .active then s
    else { s with lock := .resetting }
  | .packet p => s.receive p
  | _ => s

def step : Event → LinkMachine
  | .linkRequest ok => s.handleLinkRequest ok
  | .lockStep ok fatal => { s.lockStep ok fatal with shared := true }
  | .drainStep ok => { s.drainStep ok with shared := true }
  | e => { (if s.lock = .free then s.locked e else s) with shared := true }

end

/-! ## The property -/

/-- **Safety of the state machine.** -/
structure Safe (s : LinkMachine) : Prop where
  active_keys : s.status = .active → s.keys = some s.establishment
  closed_stays : ∀ c ∈ s.changes, c.before = .closed → c.after ≠ .closed → c.writer = .reestablish
  callback_once : s.callbacks.Nodup

/-- No packet is being handled when the link is reset, and when `Establish` takes it up. -/
def undisturbed (s : LinkMachine) : Event → Bool
  | .lockStep _ _ =>
    match s.lock with
    | .resetting | .establishing => decide (s.drain = .idle)
    | _ => true
  | _ => true

/-! ## The invariant -/

def armed : DrainPhase → Bool
  | .measured | .promoting | .promoted | .opened | .closing => true
  | _ => false

def answering : DrainPhase → Bool
  | .responder | .decrypting | .measured | .promoting | .promoted => true
  | _ => false

/-- The drainer has seen the status *handshake*, and has yet to promote the link. -/
def promising : DrainPhase → Bool
  | .decrypting | .measured | .promoting => true
  | _ => false

def LockOk (s : LinkMachine) : Prop :=
  match s.lock with
  | .free | .resetting => True
  | .establishing | .preparing => s.status = .pending ∧ s.keys = none
  | .validating => s.initiator = true ∧ s.status = .pending ∧ s.keys = none
  | .derived => s.initiator = true ∧ s.status = .pending ∧ s.keys ≠ none
  | .shaken => s.initiator = true ∧ s.status = .handshake ∧ s.keys ≠ none
  | .promoted =>
    s.initiator = true ∧ s.status = .active ∧ s.keys ≠ none ∧ s.establishment ∉ s.callbacks

structure Inv (s : LinkMachine) : Prop where
  closed_stays : ∀ c ∈ s.changes, c.before = .closed → c.after ≠ .closed → c.writer = .reestablish
  callback_once : s.callbacks.Nodup
  keys_now : ∀ e, s.keys = some e → e = s.establishment
  live : s.status = .active ∨ s.status = .stale → s.keys ≠ none
  pending : s.status = .pending → s.keys = none ∨ s.lock = .derived
  handshake : s.status = .handshake → s.initiator = false ∧ s.keys ≠ none ∨ s.lock = .shaken
  called_le : ∀ e ∈ s.callbacks, e ≤ s.establishment
  called : s.establishment ∈ s.callbacks → s.status ≠ .pending ∧ s.status ≠ .handshake
  lock_ok : LockOk s
  quiet : s.lock ≠ .free → s.lock ≠ .resetting → armed s.drain = false
  armed_keys : armed s.drain = true → s.keys ≠ none
  answers : answering s.drain = true → s.initiator = false
  promises : promising s.drain = true →
    (s.status = .handshake ∨ s.status = .closed) ∧ s.establishment ∉ s.callbacks
  calls : s.drain = .promoted →
    s.status ≠ .pending ∧ s.status ≠ .handshake ∧ s.establishment ∉ s.callbacks
  untouched : s.shared = false → s = new

variable {s : LinkMachine} {d : DrainPhase} {lock : LockPhase}

lemma Inv.safe (h : Inv s) : Safe s := by
  refine { h with active_keys := fun hactive => ?_ }
  obtain ⟨e, he⟩ := Option.ne_none_iff_exists'.1 (h.live (.inl hactive))
  rw [he, h.keys_now e he]

lemma Inv.init : Inv new := by
  constructor
  all_goals simp [new, LockOk, armed, promising]

lemma Inv.share (h : Inv s) : Inv { s with shared := true } :=
  { h with untouched := nofun }

lemma closed_stays_append {changes : List StatusChange} {c : StatusChange}
    (h : ∀ c ∈ changes, c.before = .closed → c.after ≠ .closed → c.writer = .reestablish)
    (hc : c.before = .closed → c.after ≠ .closed → c.writer = .reestablish) :
    ∀ c' ∈ changes ++ [c],
      c'.before = .closed → c'.after ≠ .closed → c'.writer = .reestablish := by
  intro c' hc'
  rcases List.mem_append.1 hc' with hold | hnew
  · exact h c' hold
  · rw [List.mem_singleton.1 hnew]
    exact hc

/-! ### Closing -/

lemma Inv.write_closed (h : Inv s) (hlock : s.lock = .free ∨ s.lock = .resetting)
    (writer : StatusWriter) : Inv { s.write .closed writer with shared := true } := { h with
  closed_stays := closed_stays_append h.closed_stays fun _ hne => absurd rfl hne
  live := by rintro (⟨⟨⟩⟩ | ⟨⟨⟩⟩)
  pending := nofun
  handshake := nofun
  called := fun _ => ⟨nofun, nofun⟩
  lock_ok := by
    rcases hlock with hlock | hlock <;> simp [LockOk, write, hlock]
  promises := fun hp => ⟨.inr rfl, (h.promises hp).2⟩
  calls := fun hd => ⟨nofun, nofun, (h.calls hd).2.2⟩
  untouched := nofun }

lemma Inv.closeOnce (h : Inv s) (hlock : s.lock = .free ∨ s.lock = .resetting)
    (writer : StatusWriter) : Inv { s.closeOnce writer with shared := true } := by
  rw [LinkMachine.closeOnce]
  split_ifs
  · exact h.share
  · exact h.write_closed hlock writer

lemma markFailed_of_initiator (h : s.initiator) :
    s.markInitiatorEstablishmentFailedLocked = s.write .closed .establish := by
  simp [markInitiatorEstablishmentFailedLocked, h]

lemma Inv.markFailed (h : Inv s) (hlock : s.lock = .free ∨ s.lock = .resetting) :
    Inv { s.markInitiatorEstablishmentFailedLocked with shared := true } := by
  rw [markInitiatorEstablishmentFailedLocked]
  split_ifs
  · exact h.share
  · exact h.write_closed hlock .establish

/-! ### The drainer -/

lemma promoteToActive_handshake (h : s.status = .handshake) (writer : StatusWriter) :
    s.promoteToActive writer = (s.write .active writer, true) := by
  simp [promoteToActive, h]

lemma promoteToActive_closed (h : s.status = .closed) (writer : StatusWriter) :
    s.promoteToActive writer = (s, false) := by
  simp [promoteToActive, h]

lemma answering_of_promising (h : promising d) : answering d := by
  cases d with
  | decrypting | measured | promoting => rfl
  | _ => cases h

section

variable (h : Inv s)
include h

lemma Inv.lock_of_armed (harmed : armed s.drain) : s.lock = .free ∨ s.lock = .resetting := by
  by_contra hlock
  rw [not_or] at hlock
  rw [h.quiet hlock.1 hlock.2] at harmed
  cases harmed

lemma Inv.drained (harmed : armed d → armed s.drain ∨ s.lock = .free ∧ s.keys ≠ none)
    (hanswers : answering d → s.initiator = false) (hpromises : promising d →
      (s.status = .handshake ∨ s.status = .closed) ∧ s.establishment ∉ s.callbacks)
    (hcalls : d ≠ .promoted) : Inv { s with drain := d, shared := true } := { h with
  quiet := fun hfree hresetting => by
    by_contra hd
    rcases harmed (Bool.eq_true_of_not_eq_false hd) with hs | ⟨hlock, -⟩
    · exact Bool.false_ne_true ((h.quiet hfree hresetting).symm.trans hs)
    · exact hfree hlock
  armed_keys := fun hd => by
    rcases harmed hd with hs | ⟨-, hkeys⟩
    · exact h.armed_keys hs
    · exact hkeys
  answers := hanswers
  promises := hpromises
  calls := fun hd => absurd hd hcalls
  untouched := nofun }

lemma Inv.drained_promising (hpromising : promising s.drain)
    (harmed : armed s.drain ∨ s.lock = .free ∧ s.keys ≠ none) (hcalls : d ≠ .promoted) :
    Inv { s with drain := d, shared := true } :=
  h.drained (fun _ => harmed) (fun _ => h.answers (answering_of_promising hpromising))
    (fun _ => h.promises hpromising) hcalls

lemma Inv.drained_idle : Inv { s with drain := .idle, shared := true } :=
  h.drained nofun nofun nofun nofun

/-- The link of a responder becomes active from *handshake*, and from nothing else. -/
lemma Inv.promoting (hdrain : s.drain = .promoting) :
    Inv { (if (s.promoteToActive .rtt).2 then
        { (s.promoteToActive .rtt).1 with drain := .promoted }
      else { s with drain := .idle }) with shared := true } := by
  have hlock := h.lock_of_armed (by rw [hdrain]; rfl)
  have hkeys := h.armed_keys (by rw [hdrain]; rfl)
  obtain ⟨hstatus | hstatus, hcallbacks⟩ := h.promises (by rw [hdrain]; rfl)
  · rw [promoteToActive_handshake hstatus]
    exact { h with
      closed_stays := closed_stays_append h.closed_stays fun hb =>
        absurd (hstatus.symm.trans hb) nofun
      live := fun _ => hkeys
      pending := nofun
      handshake := nofun
      called := fun _ => ⟨nofun, nofun⟩
      lock_ok := by rcases hlock with hlock | hlock <;> simp [LockOk, write, hlock]
      quiet := fun hfree hresetting => absurd hlock (not_or.2 ⟨hfree, hresetting⟩)
      armed_keys := fun _ => hkeys
      answers := fun _ => h.answers (by rw [hdrain]; rfl)
      promises := nofun
      calls := fun _ => ⟨nofun, nofun, hcallbacks⟩
      untouched := nofun }
  · rw [promoteToActive_closed hstatus]
    exact h.drained_idle

lemma Inv.callback (hnew : s.establishment ∉ s.callbacks)
    (hstatus : s.status ≠ .pending ∧ s.status ≠ .handshake)
    (hlock : lock = .free ∨ lock = .resetting) (hd : armed d = false)
    (hanswers : answering d = false) :
    Inv { s.establishedCallback with drain := d, lock, shared := true } := { h with
  callback_once := by
    rw [establishedCallback, List.nodup_append]
    refine ⟨h.callback_once, List.nodup_singleton _, ?_⟩
    rintro e he _ hmem rfl
    rw [List.mem_singleton.1 hmem] at he
    exact hnew he
  pending := fun hs => absurd hs hstatus.1
  handshake := fun hs => absurd hs hstatus.2
  called_le := fun e he => by
    rcases List.mem_append.1 he with hold | hmem
    · exact h.called_le e hold
    · exact (List.mem_singleton.1 hmem).le
  called := fun _ => hstatus
  lock_ok := by rcases hlock with rfl | rfl <;> trivial
  quiet := fun _ _ => hd
  armed_keys := fun harmed => by
    rw [hd] at harmed
    cases harmed
  answers := fun ha => by
    rw [hanswers] at ha
    cases ha
  promises := fun hp => by
    rw [answering_of_promising hp] at hanswers
    cases hanswers
  calls := by
    rintro rfl
    cases hd
  untouched := nofun }

lemma Inv.drainStep (ok : Bool) : Inv { s.drainStep ok with shared := true } := by
  rw [LinkMachine.drainStep]
  cases hdrain : s.drain with
  | idle => exact h.share
  | received p =>
    have hrtt : Inv { s with drain := .rtt, shared := true } := h.drained nofun nofun nofun nofun
    have hdata : Inv { (if s.status ≠ .active ∧ s.status ≠ .handshake then
        { s with drain := .idle }
        else { s with drain := if p = .linkClose then .admitted else .rtt }) with
        shared := true } := by
      split_ifs
      · exact h.drained_idle
      · exact h.drained nofun nofun nofun nofun
      · exact hrtt
    cases p with
    | rtt proof =>
      cases proof with
      | true => exact hrtt
      | false => exact hdata
    | linkClose | other => exact hdata
  | rtt =>
    simp only
    split_ifs with hinit
    · exact h.drained_idle
    · exact h.drained nofun (fun _ => Bool.eq_false_of_not_eq_true hinit) nofun nofun
  | responder =>
    simp only
    split_ifs with hstatus
    · refine h.drained nofun (fun _ => h.answers (by rw [hdrain]; rfl))
        (fun _ => ⟨.inl hstatus, ?_⟩) nofun
      intro hcalled
      exact (h.called hcalled).2 hstatus
    · exact h.drained_idle
  | decrypting =>
    simp only
    split_ifs with hlock hkeys
    · exact h.share
    · exact h.drained_promising (by rw [hdrain]; rfl) (.inr ⟨not_not.1 hlock, hkeys.1⟩) nofun
    · exact h.drained_idle
  | measured =>
    simp only
    split_ifs
    · exact h.share
    · exact h.drained_promising (by rw [hdrain]; rfl) (.inl (by rw [hdrain]; rfl)) nofun
  | promoting => exact h.promoting hdrain
  | promoted =>
    obtain ⟨hpending, hhandshake, hnew⟩ := h.calls hdrain
    exact h.callback hnew ⟨hpending, hhandshake⟩ (h.lock_of_armed (by rw [hdrain]; rfl)) rfl rfl
  | admitted =>
    simp only
    split_ifs with hlock hkeys
    · exact h.share
    · exact h.drained (fun _ => .inr ⟨not_not.1 hlock, hkeys.1⟩) nofun nofun nofun
    · exact h.drained_idle
  | opened =>
    simp only
    split_ifs
    · exact h.drained (fun _ => .inl (by rw [hdrain]; rfl)) nofun nofun nofun
    · exact h.drained_idle
  | closing =>
    exact (h.closeOnce (h.lock_of_armed (by rw [hdrain]; rfl)) .teardown).drained_idle

/-! ### The holder of the lock -/

lemma Inv.lock_ok_of (hlock : s.lock = lock) : LockOk { s with lock } := by
  subst hlock
  exact h.lock_ok

lemma Inv.not_armed (hkeys : s.keys = none) : armed s.drain = false := by
  by_contra harmed
  exact h.armed_keys (Bool.eq_true_of_not_eq_false harmed) hkeys

lemma Inv.not_answering (hinit : s.initiator) : answering s.drain = false := by
  by_contra ha
  rw [h.answers (Bool.eq_true_of_not_eq_false ha)] at hinit
  cases hinit

lemma Inv.relock (hlock : lock = .free ∨ lock = .resetting) (hderived : s.lock ≠ .derived)
    (hshaken : s.lock ≠ .shaken) : Inv { s with lock, shared := true } := { h with
  pending := fun hs => .inl ((h.pending hs).resolve_right hderived)
  handshake := fun hs => .inl ((h.handshake hs).resolve_right hshaken)
  lock_ok := by rcases hlock with rfl | rfl <;> trivial
  quiet := fun hfree hresetting => absurd hlock (not_or.2 ⟨hfree, hresetting⟩)
  untouched := nofun }

lemma Inv.relock_pending (hfree : s.lock = .free) (hpending : s.status = .pending)
    (hlock : LockOk { s with lock, keys := none }) :
    Inv { s with lock, shared := true } := by
  have hkeys : s.keys = none := (h.pending hpending).resolve_right (by simp [hfree])
  have hnot := h.not_armed hkeys
  refine { h with
    pending := fun _ => .inl hkeys
    handshake := fun hs => ?_
    lock_ok := ?_
    quiet := fun _ _ => hnot
    untouched := nofun }
  · rw [hpending] at hs
    cases hs
  · rw [← hkeys] at hlock
    exact hlock

lemma Inv.not_promising (hpending : s.status = .pending) :
    ¬ promising s.drain ∧ s.drain ≠ .promoted := by
  constructor
  · intro hp
    have hstatus := (h.promises hp).1
    rw [hpending] at hstatus
    rcases hstatus with hs | hs <;> cases hs
  · intro hd
    exact (h.calls hd).1 hpending

lemma Inv.write_pending (hpending : s.status = .pending) (hkeys : s.keys = none)
    (writer : StatusWriter) :
    Inv { s.write .pending writer with lock := .free, shared := true } := by
  have hrelock : Inv { s with lock := .free, shared := true } := by
    refine h.relock (.inl rfl) ?_ ?_
    · intro hderived
      exact (h.lock_ok_of hderived).2.2 hkeys
    · intro hshaken
      cases hpending.symm.trans (h.lock_ok_of hshaken).2.1
  refine { hrelock with
    closed_stays := closed_stays_append h.closed_stays fun hb => ?_
    live := by rintro (⟨⟨⟩⟩ | ⟨⟨⟩⟩)
    pending := fun _ => .inl hkeys
    handshake := nofun
    called := fun hc => absurd hpending (h.called hc).1
    promises := fun hp => absurd hp (h.not_promising hpending).1
    calls := fun hd => absurd hd (h.not_promising hpending).2
    untouched := nofun }
  rw [hpending] at hb
  cases hb

lemma Inv.validating (hlock : s.lock = .validating) (ok fatal : Bool) :
    Inv { s.lockStep ok fatal with shared := true } := by
  obtain ⟨(hinit : s.initiator), hpending, hkeys⟩ := h.lock_ok_of hlock
  have hfree : Inv { s with lock := .free, shared := true } :=
    h.relock (.inl rfl) (by simp [hlock]) (by simp [hlock])
  simp only [lockStep, hlock, markFailed_of_initiator hinit]
  split_ifs
  · exact { h with
      keys_now := by
        rintro _ ⟨⟩
        rfl
      live := fun _ => nofun
      pending := fun _ => .inr rfl
      handshake := fun hs => absurd (hpending.symm.trans hs) nofun
      lock_ok := ⟨hinit, hpending, nofun⟩
      quiet := fun _ _ => h.not_armed hkeys
      armed_keys := fun _ => nofun
      untouched := nofun }
  · exact hfree.write_closed (.inl rfl) .establish
  · exact hfree

lemma Inv.derived (hlock : s.lock = .derived) (ok fatal : Bool) :
    Inv { s.lockStep ok fatal with shared := true } := by
  obtain ⟨hinit, (hpending : s.status = _), hkeys⟩ := h.lock_ok_of hlock
  have hquiet := h.quiet (by simp [hlock]) (by simp [hlock])
  simp only [lockStep, hlock]
  exact { h with
    closed_stays := closed_stays_append h.closed_stays fun hb =>
      absurd (hpending.symm.trans hb) nofun
    live := by rintro (⟨⟨⟩⟩ | ⟨⟨⟩⟩)
    pending := nofun
    handshake := fun _ => .inr rfl
    called := fun hc => absurd hpending (h.called hc).1
    lock_ok := ⟨hinit, rfl, hkeys⟩
    quiet := fun _ _ => hquiet
    promises := fun hp => absurd hp (h.not_promising hpending).1
    calls := fun hd => absurd hd (h.not_promising hpending).2
    untouched := nofun }

lemma Inv.shaken (hlock : s.lock = .shaken) (ok fatal : Bool) :
    Inv { s.lockStep ok fatal with shared := true } := by
  obtain ⟨hinit, (hstatus : s.status = _), hkeys⟩ := h.lock_ok_of hlock
  have hquiet := h.quiet (by simp [hlock]) (by simp [hlock])
  have hanswers := h.not_answering hinit
  simp only [lockStep, hlock, promoteToActive_handshake hstatus]
  exact { h with
    closed_stays := closed_stays_append h.closed_stays fun hb =>
      absurd (hstatus.symm.trans hb) nofun
    live := fun _ => hkeys
    pending := nofun
    handshake := nofun
    called := fun _ => ⟨nofun, nofun⟩
    lock_ok := ⟨hinit, rfl, hkeys, fun hc => (h.called hc).2 hstatus⟩
    quiet := fun _ _ => hquiet
    promises := fun hp =>
      absurd (answering_of_promising hp) (Bool.eq_false_iff.1 hanswers)
    calls := fun hd => ⟨nofun, nofun, (h.calls hd).2.2⟩
    untouched := nofun }

lemma Inv.promoted (hlock : s.lock = .promoted) (ok fatal : Bool) :
    Inv { s.lockStep ok fatal with shared := true } := by
  obtain ⟨hinit, (hstatus : s.status = _), -, hnew⟩ := h.lock_ok_of hlock
  simp only [lockStep, hlock]
  split_ifs
  · exact h.callback hnew (by simp [hstatus]) (.inl rfl)
      (h.quiet (by simp [hlock]) (by simp [hlock])) (h.not_answering hinit)
  · exact h.relock (.inl rfl) (by simp [hlock]) (by simp [hlock])

lemma Inv.renew (hdrain : s.drain = .idle) (lock : LockPhase) (initiator requested : Bool)
    {establishment : ℕ} {writer : StatusWriter}
    (hwriter : s.status = .closed → writer = .reestablish) (hnew : establishment ∉ s.callbacks)
    (hle : s.establishment ≤ establishment) (hlock : lock = .preparing ∨ lock = .free) :
    Inv { s.write .pending writer with
      initiator, keys := none, establishment, requested,
      lock, shared := true } where
  closed_stays := closed_stays_append h.closed_stays fun hb _ => hwriter hb
  callback_once := h.callback_once
  keys_now := nofun
  live := by rintro (⟨⟨⟩⟩ | ⟨⟨⟩⟩)
  pending := fun _ => .inl rfl
  handshake := nofun
  called_le := fun e he => (h.called_le e he).trans hle
  called := fun hc => absurd hc hnew
  lock_ok := by
    rcases hlock with rfl | rfl
    · exact ⟨rfl, rfl⟩
    · trivial
  quiet := fun _ _ => by simp [write, hdrain, armed]
  armed_keys := by simp [write, hdrain, armed]
  answers := by simp [write, hdrain, answering]
  promises := by simp [write, hdrain, promising]
  calls := by simp [write, hdrain]
  untouched := nofun

lemma Inv.lockStep {ok fatal : Bool} (he : undisturbed s (.lockStep ok fatal)) :
    Inv { s.lockStep ok fatal with shared := true } := by
  rw [undisturbed] at he
  cases hlock : s.lock with
  | free =>
    rw [LinkMachine.lockStep, hlock]
    exact h.share
  | validating => exact h.validating hlock ok fatal
  | derived => exact h.derived hlock ok fatal
  | shaken => exact h.shaken hlock ok fatal
  | promoted => exact h.promoted hlock ok fatal
  | establishing =>
    have hok := h.lock_ok_of hlock
    rw [hlock] at he
    simp only [LinkMachine.lockStep, hlock]
    have hnext := h.renew (of_decide_eq_true he) .preparing true true
      (fun hc => absurd (hok.1.symm.trans hc) nofun : s.status = .closed → .establish = _)
      (fun hc => (h.called hc).1 hok.1) le_rfl (.inl rfl)
    rw [← hok.2] at hnext
    exact hnext
  | preparing =>
    have hok := h.lock_ok_of hlock
    simp only [LinkMachine.lockStep, hlock]
    split_ifs
    · exact h.write_pending hok.1 hok.2 .establish
    · exact { h.relock (.inl rfl) (by simp [hlock]) (by simp [hlock]) with untouched := nofun }
  | resetting =>
    rw [hlock] at he
    simp only [LinkMachine.lockStep, hlock]
    exact h.renew (of_decide_eq_true he) .free s.initiator false (fun _ => rfl)
      (fun hc => absurd (h.called_le _ hc) (Nat.not_succ_le_self _)) (Nat.le_succ _) (.inr rfl)

/-! ### Calls -/

lemma Inv.write_live (hfree : s.lock = .free) {status : LinkStatus}
    (hfrom : s.status = .active ∨ s.status = .stale) (hto : status = .active ∨ status = .stale)
    (writer : StatusWriter) : Inv { s.write status writer with shared := true } := by
  have hne : status ≠ .pending ∧ status ≠ .handshake := by rcases hto with rfl | rfl <;> simp
  refine { h with
    closed_stays := closed_stays_append h.closed_stays fun hb => ?_
    live := fun _ => h.live hfrom
    pending := fun hs => absurd hs hne.1
    handshake := fun hs => absurd hs hne.2
    called := fun _ => hne
    lock_ok := ?_
    promises := fun hp => ?_
    calls := fun hd => ⟨hne.1, hne.2, (h.calls hd).2.2⟩
    untouched := nofun }
  · rcases hfrom with hs | hs <;> · rw [hs] at hb; cases hb
  · simp [LockOk, write, hfree]
  · rcases (h.promises hp).1 with hs | hs <;> rw [hs] at hfrom <;> simp at hfrom

lemma Inv.receive (hfree : s.lock = .free) (p : LinkPacket) :
    Inv { s.receive p with shared := true } := by
  have hlive (hstale : s.status = .stale) := h.write_live hfree (.inr hstale) (.inl rfl) .inbound
  rw [LinkMachine.receive]
  split_ifs with hbusy hstale
  · exact h.share
  · exact (hlive hstale).drained_idle
  · exact (hlive hstale).drained nofun nofun nofun nofun
  · exact h.drained_idle
  · exact h.drained nofun nofun nofun nofun

lemma Inv.locked (hfree : s.lock = .free) (e : Event) : Inv { s.locked e with shared := true } := by
  cases e with
  | establish admitted =>
    rw [LinkMachine.locked]
    split_ifs with hcond
    · exact h.relock_pending hfree hcond.1 ⟨hcond.1, rfl⟩
    · exact h.share
  | proof =>
    rw [LinkMachine.locked]
    split_ifs with hcond
    · -- an initiator is in *handshake* only while the lock is held
      obtain ⟨hinit, hstatus⟩ := hcond
      have hpending : s.status = .pending := by
        refine hstatus.resolve_right fun hs => ?_
        rcases h.handshake hs with ⟨hnot, -⟩ | hshaken
        · rw [hnot] at hinit
          cases hinit
        · rw [hfree] at hshaken
          cases hshaken
      exact h.relock_pending hfree hpending ⟨hinit, hpending, rfl⟩
    · exact h.share
  | requestFailed => exact h.markFailed (.inl hfree)
  | teardown => exact h.closeOnce (.inl hfree) .teardown
  | watchdogClose => exact h.closeOnce (.inl hfree) .watchdog
  | watchdogStale =>
    rw [LinkMachine.locked]
    split_ifs with hactive
    · exact h.write_live hfree (.inl hactive) (.inr rfl) .watchdog
    · exact h.share
  | reestablish =>
    rw [LinkMachine.locked]
    split_ifs
    · exact h.share
    · exact h.relock (.inr rfl) (by simp [hfree]) (by simp [hfree])
  | packet p => exact h.receive hfree p
  | linkRequest ok | lockStep ok fatal | drainStep ok => exact h.share

lemma Inv.handleLinkRequest (ok : Bool) : Inv (s.handleLinkRequest ok) := by
  rw [LinkMachine.handleLinkRequest]
  split_ifs with hshared
  · exact h
  · rw [h.untouched (Bool.eq_false_of_not_eq_true hshared)]
    constructor <;> simp [new, write, LockOk, armed]
  · exact h.share

/-- **Every undisturbed step keeps the invariant.** -/
lemma Inv.step {e : Event} (he : undisturbed s e) : Inv (s.step e) := by
  have hcall e :
      Inv { (if s.lock = .free then s.locked e else s) with shared := true } := by
    split_ifs with hfree
    · exact h.locked hfree e
    · exact h.share
  cases e with
  | linkRequest ok => exact h.handleLinkRequest ok
  | lockStep ok fatal => exact h.lockStep he
  | drainStep ok => exact h.drainStep ok
  | establish admitted => exact hcall (.establish admitted)
  | proof => exact hcall .proof
  | requestFailed => exact hcall .requestFailed
  | teardown => exact hcall .teardown
  | watchdogClose => exact hcall .watchdogClose
  | watchdogStale => exact hcall .watchdogStale
  | reestablish => exact hcall .reestablish
  | packet p => exact hcall (.packet p)

end

/-- **The state machine is safe in every undisturbed run.** -/
theorem safe_of_undisturbed {es : List Event}
    (h : Run.Along step (fun s e => undisturbed s e) new es) : Run.Always step Safe new es :=
  (Run.always_of_along (fun _ _ hs he => hs.step he) Inv.init h).mono fun _ hs => hs.safe

/-! ## Late packets -/

def established : List Event :=
  [.establish true, .lockStep true false, .lockStep true false, .proof] ++
    .replicate 4 (.lockStep true false)

def resetRun : List Event := [.reestablish, .lockStep true false]

def closedByPeer : List Event := .packet .linkClose :: .replicate 4 (.drainStep true)

/-- A link is established, closed by the peer, and established again. -/
theorem safe_reestablished :
    (Run.exec step new (established ++ closedByPeer ++ resetRun ++ established)).status = .active ∧
      Run.Always step Safe new (established ++ closedByPeer ++ resetRun ++ established) :=
  ⟨by decide, safe_of_undisturbed (by decide)⟩

/-- The link of a responder handles an RTT packet up to the promotion, when it times out and is
reset. -/
def lateRTT : List Event :=
  [.linkRequest true, .packet (.rtt false)] ++ .replicate 5 (.drainStep true) ++
    .watchdogClose :: resetRun

/-- A teardown packet is handled up to the closing, when the link is closed by its owner and reset;
the closing comes while the proof of the next establishment is validated. -/
def lateClose : List Event :=
  established ++ .packet .linkClose :: .replicate 3 (.drainStep true) ++
    .teardown :: resetRun ++ established.take 4 ++
    .drainStep true :: established.drop 4

/-- **Packets that are handled past a `Reestablish`.**  A late RTT packet makes a link active that
has no session keys, or invokes the callback of the new establishment a second time; and a link that
a late teardown packet closes becomes active by a proof. -/
theorem lateHandlers_unsafe :
    (Run.exec step new (lateRTT ++ [.drainStep true])).status = .active ∧
      (Run.exec step new (lateRTT ++ [.drainStep true])).keys = none ∧
      (Run.exec step new (lateRTT ++ established ++ List.replicate 2 (.drainStep true))).callbacks =
        [1, 1] ∧
      ⟨.closed, .handshake, .proof⟩ ∈ (Run.exec step new lateClose).changes ∧
      (Run.exec step new lateClose).status = .active ∧
      ¬ Run.Always step Safe new (lateRTT ++ [.drainStep true]) ∧
      ¬ Run.Always step Safe new (lateRTT ++ established ++ List.replicate 2 (.drainStep true)) ∧
      ¬ Run.Always step Safe new lateClose := by
  have hactive : (Run.exec step new (lateRTT ++ [.drainStep true])).status = .active := by
    decide +kernel
  have hkeys : (Run.exec step new (lateRTT ++ [.drainStep true])).keys = none := by
    decide +kernel
  have htwice : (Run.exec step new
      (lateRTT ++ established ++ .replicate 2 (.drainStep true))).callbacks = [1, 1] := by
    decide +kernel
  have hreopened : ⟨.closed, .handshake, .proof⟩ ∈ (Run.exec step new lateClose).changes := by
    decide +kernel
  refine ⟨hactive, hkeys, htwice, hreopened, by decide +kernel, fun h => ?_, fun h => ?_,
    fun h => ?_⟩
  · have hsome := h.last.active_keys hactive
    cases hsome
  · have honce := h.last.callback_once
    exact absurd honce (by decide)
  · exact absurd (h.last.closed_stays _ hreopened rfl (by decide)) (by decide)

/-! ## Proofs -/

/-- **The validation of a proof is these steps**: whatever it does to the status, the steps of the
lock do when the drainer does not come between. -/
theorem validation_refines (env : ProofSurroundings) (attempt : ProofAttempt) (pl : PendingLink)
    (proof : LinkProof) (hfree : s.lock = .free) (hinit : s.initiator = pl.initiator)
    (hstatus : s.status = pl.status) :
    ∃ ok fatal, (Run.exec step s (.proof :: .replicate 4 (.lockStep ok fatal))).status =
      (pl.validateLinkProofLocked env attempt proof).1.status := by
  rcases pl.validate_status env attempt proof with hsame | ⟨⟨hpl, hwaiting⟩, hclosed | hactive⟩
  · refine ⟨false, false, ?_⟩
    rw [hsame, ← hstatus]
    by_cases hproof : s.initiator ∧ (s.status = .pending ∨ s.status = .handshake)
    · simp [step, locked, lockStep, hfree, hproof]
    · simp [step, locked, lockStep, hfree, hproof]
  · refine ⟨false, true, ?_⟩
    rw [← hstatus] at hwaiting
    rw [← hinit] at hpl
    rw [hclosed]
    simp [step, locked, lockStep, hfree, hpl, hwaiting, markInitiatorEstablishmentFailedLocked,
      write]
  · refine ⟨true, false, ?_⟩
    rw [← hstatus] at hwaiting
    rw [← hinit] at hpl
    rw [hactive]
    simp [step, locked, lockStep, hfree, hpl, hwaiting, promoteToActive, write, establishedCallback]

end LinkMachine

end Reticulum

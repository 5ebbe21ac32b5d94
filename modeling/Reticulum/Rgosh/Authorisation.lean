import Reticulum.Rgosh.Session

/-!
# Who may start a process

Whatever the peer sends, and whenever the session is closed, only who is allowed starts a process
(**`SessionRun.authorised`**), if perhaps before the version of the session has been sent
(`SessionRun.start_before_reply`).  Every handler lets the state move and sends messages (`Calm`),
or **grants** a start, which happens in one state only, and that state is left then (`Granted`).
-/

namespace Reticulum

open List SessionAction Threads Session

/-! ## What a handler can do -/

inductive SessionState.Moves : SessionState → SessionState → Prop where
  | refl (s : SessionState) : Moves s s
  | identified : Moves .waitIdent .waitVers
  | versioned : Moves .waitVers .waitCmd
  | failed (s : SessionState) : Moves s .error
  | ended (s : SessionState) : Moves s .teardown

def SessionState.early : SessionState → Bool
  | .waitIdent | .waitVers | .waitCmd => true
  | _ => false

lemma SessionState.Moves.of_waitCmd {a : SessionState} (h : a.Moves .waitCmd) :
    a = .waitCmd ∨ a = .waitVers := by
  cases h with
  | refl => exact .inl rfl
  | versioned => exact .inr rfl

lemma SessionState.Moves.early {a b : SessionState} (h : a.Moves b) (hb : b.early) : a.early := by
  cases h with
  | refl => exact hb
  | identified => rfl
  | versioned => rfl
  | failed | ended => cases hb

def SessionAction.plain : SessionAction → Bool
  | .start _ | .attach _ | .close => false
  | _ => true

def SessionAction.isStart : SessionAction → Bool
  | .start _ => true
  | _ => false

namespace Session

/-- The state moves, messages are sent, and no process is started. -/
structure Calm (s : Session) (h : SessionHandled) : Prop where
  cfg : h.session.cfg = s.cfg
  authed : h.session.authed = true →
    s.authed = true ∧ h.session.remoteHash = s.remoteHash ∨
      s.cfg.allowAll = true ∨ h.session.remoteHash ∈ s.cfg.allowed
  moves : s.state.Moves h.session.state
  proc : h.session.proc = s.proc
  closed : h.session.closed = s.closed
  script : ∀ a ∈ h.script, a.plain = true

/-- A process is to be started. -/
structure Granted (s : Session) (h : SessionHandled) (req : ExecRequest) : Prop where
  ready : s.state = .waitCmd
  session : h.session = { s with spawned := true, state := .running }
  authed : s.authed = true ∨ s.cfg.allowAll = true
  remoteIdentity : req.remoteIdentity = s.remoteHash
  forced : s.cfg.forcedCommand = true → req.exec.cmdline = s.cfg.defaultCmd
  script : h.script = [.start req]

variable {s : Session} {script : List SessionAction}

lemma calm_of_state {state : SessionState} {calls : List ProcessCall} (hmoves : s.state.Moves state)
    (hscript : ∀ a ∈ script, a.plain) : s.Calm ⟨{ s with state }, calls, script⟩ :=
  ⟨rfl, fun h => .inl ⟨h, rfl⟩, hmoves, rfl, rfl, hscript⟩

lemma calm_ignore : s.Calm s.ignore :=
  calm_of_state (.refl _) (by simp)

lemma calm_deny (hscript : ∀ a ∈ script, a.plain) :
    s.Calm ⟨{ s with state := .teardown, authed := false }, [], script⟩ where
  cfg := rfl
  authed h := by cases h
  moves := .ended _
  proc := rfl
  closed := rfl
  script := hscript

lemma calm_denyProtocol (reason : String) : s.Calm (s.denyProtocol reason) := by
  refine calm_deny ?_
  cases s.cfg.compat <;> simp [plain]

lemma calm_denyIdentity (reason : String) : s.Calm (s.denyIdentity reason) := by
  refine calm_deny ?_
  cases s.cfg.compat <;> simp [plain]

lemma calm_identify {hash : Bytes}
    (hstate : ¬ (s.state ≠ .waitIdent ∧ s.state ≠ .waitVers))
    (hallowed : s.cfg.allowAll ∨ hash ∈ s.cfg.allowed)
    (hscript : ∀ a ∈ script, a.plain) : s.Calm ⟨s.identify hash, [], script⟩ where
  cfg := rfl
  authed _ := .inr hallowed
  moves := by
    obtain hident | hvers := not_and_or.mp hstate
    · rw [not_not.mp hident]
      exact .identified
    · rw [not_not.mp hvers]
      exact .refl _
  proc := rfl
  closed := rfl
  script := hscript

lemma calm_setRemoteIdentity (hash : Bytes) : s.Calm (s.setRemoteIdentity hash) := by
  rw [setRemoteIdentity]
  split
  · exact calm_ignore
  next hstate =>
    split
    next hall => exact calm_identify hstate (.inl hall) (by simp)
    · split
      · exact calm_denyIdentity _
      next hnot =>
        refine calm_identify hstate (.inr (not_not.mp hnot)) ?_
        cases s.cfg.compat <;> simp [plain]

lemma plain_reply : ∀ a ∈ [send (.version s.versionReply)], a.plain := by
  simp [plain]

lemma calm_handleVersion : s.Calm s.handleVersion := by
  rw [handleVersion]
  split_ifs with hlate hvers hauth
  · exact calm_of_state (.refl _) plain_reply
  · exact calm_denyProtocol _
  · exact calm_denyProtocol _
  · refine calm_of_state ?_ plain_reply
    rw [not_not.mp hvers]
    exact .versioned

lemma calm_handleStream (m : RgoshStream) : s.Calm (s.handleStream m) := by
  rw [handleStream]
  split
  · exact calm_ignore
  split
  · exact calm_ignore
  split
  · exact ⟨rfl, fun h => .inl ⟨h, rfl⟩, .refl _, rfl, rfl, by simp⟩
  · exact calm_of_state (.refl _) (by simp)

lemma calm_handleWinSize (m : RgoshWinSize) : s.Calm (s.handleWinSize m) := by
  rw [handleWinSize]
  split
  · exact calm_ignore
  · split_ifs
    · exact calm_ignore
    · exact calm_of_state (.refl _) (by simp)

/-- **A command** is refused, or it is granted to a peer that is allowed. -/
lemma handleExec_cases (m : RgoshExec) :
    s.Calm (s.handleExec m) ∨ ∃ req, s.Granted (s.handleExec m) req := by
  rw [handleExec]
  split_ifs with hready hauth hforced hempty hstarter
  · exact .inl (calm_denyProtocol _)
  · exact .inl (calm_denyProtocol _)
  · exact .inl (calm_denyProtocol _)
  · exact .inl (calm_denyProtocol _)
  · exact .inl (calm_denyProtocol _)
  · refine .inr ⟨_, not_not.mp hready, rfl, ?_, rfl, fun h => ?_, rfl⟩
    · simp only [Bool.and_eq_true, Bool.not_eq_true', not_and, Bool.not_eq_false] at hauth
      by_cases h : s.authed
      · exact .inl h
      · exact .inr (hauth (by simpa using h))
    · rw [resolve, if_pos h]

/-- **All that a message can do.** -/
lemma handleMessage_cases (msg : RgoshMessage) :
    s.Calm (s.handleMessage msg) ∨ ∃ req, s.Granted (s.handleMessage msg) req := by
  unfold handleMessage
  split
  · exact .inl calm_ignore
  cases msg with
  | noop compat => exact .inl (calm_of_state (.refl _) (by simp [plain]))
  | version m => exact .inl calm_handleVersion
  | authOK | exit compat returnCode => exact .inl calm_ignore
  | authDenied reason =>
    exact .inl (calm_of_state (.ended _) (by simp [plain]))
  | exec m => exact handleExec_cases m
  | stream m => exact .inl (calm_handleStream m)
  | winSize m => exact .inl (calm_handleWinSize m)
  | error compat msg fatal =>
    left
    dsimp only
    split_ifs
    · exact calm_of_state (.failed _) (by simp [plain])
    · exact calm_of_state (.refl _) (by simp [plain])

end Session

namespace SessionRun

variable {s s' : SessionRun} {rest script : List SessionAction} {req : ExecRequest}
  {b : SessionAction} {n : ℕ} {a : SessionAction}

/-! ## What is to hold -/

/-- The process was asked for by a peer whose version was accepted and who is allowed, and a forced
command is the one that is run. -/
structure Authorised (s : SessionRun) (req : ExecRequest) : Prop where
  accepted : s.accepted = true
  identity : s.session.cfg.allowAll = true ∨ req.remoteIdentity ∈ s.session.cfg.allowed
  forced : s.session.cfg.forcedCommand = true → req.exec.cmdline = s.session.cfg.defaultCmd

def ends : SessionAction → Bool
  | .close | .attach _ | .call (.kill _) => true
  | _ => false

/-- What holds of a session at any time. -/
structure Safe (s : SessionRun) : Prop where
  /-- One process is started at most. -/
  once : s.attempts.length ≤ 1 ∧ s.started.length ≤ s.attempts.length
  /-- A process is authorised before it is started. -/
  authorised : ∀ req, Pending s.threads (.start req) ∨ req ∈ s.attempts → s.Authorised req
  /-- Once `Close` is called, and the threads are through, a process that was started is killed. -/
  terminated : s.closeCalled = true → (∀ a, Pending s.threads a → ends a = false) →
    ∀ pid ∈ s.started, .kill pid ∈ s.calls

/-! ## The invariant -/

def starts (s : SessionRun) : ℕ := s.attempts.length + count isStart s.threads

def Doomed (s : SessionRun) (pid : ℕ) : Prop :=
  .kill pid ∈ s.calls ∨ Pending s.threads (.call (.kill pid))

structure Inv (s : SessionRun) : Prop where
  authed : s.session.authed = true →
    s.session.cfg.allowAll = true ∨ s.session.remoteHash ∈ s.session.cfg.allowed
  ready : s.session.state = .waitCmd → s.accepted = true
  early : s.session.state.early = true → s.starts = 0
  once : s.starts ≤ 1
  authorised : ∀ req, Pending s.threads (.start req) ∨ req ∈ s.attempts → s.Authorised req
  started_le : s.started.length ≤ s.attempts.length
  attach_started : ∀ pid, Pending s.threads (.attach pid) → pid ∈ s.started
  held : ∀ pid ∈ s.started,
    Pending s.threads (.attach pid) ∨ s.session.proc = some pid
  doomed : s.session.closed = true → ∀ pid, s.session.proc = some pid → s.Doomed pid
  closing : s.closeCalled = true → Pending s.threads .close ∨ s.session.closed = true

lemma inv_new (cfg : RgoshConfig) (hasStarter : Bool) : (new cfg hasStarter).Inv where
  authed h := .inl h
  ready h := by
    simp only [new, Session.new] at h
    split_ifs at h
  early _ := rfl
  once := Nat.zero_le 1
  authorised req h := by simp [new] at h
  started_le := le_refl _
  attach_started pid h := by simp [new] at h
  held pid h := by simp [new] at h
  doomed h := by cases h
  closing h := by cases h

lemma Inv.safe (h : s.Inv) : s.Safe where
  once := ⟨(Nat.le_add_right _ _).trans h.once, h.started_le⟩
  authorised := h.authorised
  terminated := by
    intro hclose hquiet pid hpid
    have hnot : ∀ a, ends a → ¬ Pending s.threads a := by
      intro a ha hpending
      rw [hquiet a hpending] at ha
      cases ha
    have hclosed := (h.closing hclose).resolve_left (hnot _ rfl)
    have hproc := (h.held pid hpid).resolve_left (hnot _ rfl)
    exact (h.doomed hclosed pid hproc).resolve_right (hnot _ rfl)

/-! ## Steps that start and attach nothing -/

structure Keeps (s s' : SessionRun) : Prop where
  cfg : s'.session.cfg = s.session.cfg
  authed : s'.session.authed = true →
    s.session.authed = true ∧ s'.session.remoteHash = s.session.remoteHash ∨
      s.session.cfg.allowAll = true ∨ s'.session.remoteHash ∈ s.session.cfg.allowed
  moves : s.session.state.Moves s'.session.state
  accepted : s'.accepted =
    (s.accepted || (s.session.state = .waitVers && s'.session.state = .waitCmd))
  attempts : s'.attempts = s.attempts
  started : s'.started = s.started
  proc : s'.session.proc = s.session.proc
  closed : s'.session.closed = s.session.closed
  closeCalled : s'.closeCalled = s.closeCalled
  count : count isStart s'.threads =
    count isStart s.threads
  start : ∀ req, Pending s'.threads (.start req) → Pending s.threads (.start req)
  attach : ∀ pid, Pending s'.threads (.attach pid) ↔ Pending s.threads (.attach pid)
  doomed : ∀ pid, s.Doomed pid → s'.Doomed pid
  close : Pending s.threads .close → Pending s'.threads .close

lemma Keeps.starts (h : Keeps s s') : s'.starts = s.starts := by
  rw [SessionRun.starts, SessionRun.starts, h.attempts, h.count]

lemma Authorised.mono (h : s.Authorised req) (hcfg : s'.session.cfg = s.session.cfg)
    (haccepted : s.accepted → s'.accepted) : s'.Authorised req := by
  refine ⟨haccepted h.accepted, ?_, ?_⟩
  · rw [hcfg]
    exact h.identity
  · rw [hcfg]
    exact h.forced

lemma Inv.keeps (h : s.Inv) (hs : Keeps s s') : s'.Inv where
  authed := by
    intro ha
    rw [hs.cfg]
    obtain ⟨hauthed, hhash⟩ | hallowed := hs.authed ha
    · rw [hhash]
      exact h.authed hauthed
    · exact hallowed
  ready := by
    intro hstate
    have hmoves := hs.moves
    rw [hstate] at hmoves
    rw [hs.accepted, hstate]
    obtain hcmd | hvers := hmoves.of_waitCmd
    · rw [h.ready hcmd, Bool.true_or]
    · simp [hvers]
  early hearly := hs.starts.trans (h.early (hs.moves.early hearly))
  once := hs.starts.trans_le h.once
  authorised := by
    intro req hreq
    have hbefore : Pending s.threads (.start req) ∨ req ∈ s.attempts := by
      obtain hpending | hmem := hreq
      · exact .inl (hs.start req hpending)
      · exact .inr (hs.attempts ▸ hmem)
    refine (h.authorised req hbefore).mono hs.cfg fun haccepted => ?_
    rw [hs.accepted, haccepted, Bool.true_or]
  started_le := by
    rw [hs.started, hs.attempts]
    exact h.started_le
  attach_started := by
    intro pid hpid
    rw [hs.started]
    exact h.attach_started pid ((hs.attach pid).mp hpid)
  held := by
    intro pid hpid
    rw [hs.started] at hpid
    rw [hs.attach, hs.proc]
    exact h.held pid hpid
  doomed := by
    intro hclosed pid hpid
    rw [hs.closed] at hclosed
    rw [hs.proc] at hpid
    exact hs.doomed pid (h.doomed hclosed pid hpid)
  closing := by
    intro hclose
    rw [hs.closeCalled] at hclose
    rw [hs.closed]
    exact (h.closing hclose).imp_left hs.close

/-! ## A call comes in -/

lemma isStart_eq_false (ha : a.plain) : a.isStart = false := by
  cases a <;> first | rfl | cases ha

lemma countP_of_plain (h : ∀ a ∈ script, a.plain) : script.countP isStart = 0 := by
  rw [countP_eq_zero]
  intro a ha
  simp [isStart_eq_false (h a ha)]

lemma not_mem_of_plain (h : ∀ a ∈ script, a.plain) (ha : a.plain = false) : a ∉ script := by
  intro hmem
  rw [h a hmem] at ha
  cases ha

lemma keeps_enter {h : SessionHandled} (hcalm : s.session.Calm h) : Keeps s (s.enter h) :=
  { hcalm with
    accepted := rfl
    attempts := rfl
    started := rfl
    closeCalled := rfl
    count := by
      rw [enter, count_append, count_cons, countP_of_plain hcalm.script]
      rfl
    start := by
      intro req hreq
      simpa [enter, not_mem_of_plain hcalm.script (a := .start req) rfl] using hreq
    attach := by
      intro pid
      simp [enter, not_mem_of_plain hcalm.script (a := .attach pid) rfl]
    doomed := by
      rintro pid (hkilled | hpending)
      · exact .inl (mem_append_left _ hkilled)
      · exact .inr ((pending_append _ _).mpr (.inl hpending))
    close := fun hpending => (pending_append _ _).mpr (.inl hpending) }

/-- **A start is granted**, which was not done before. -/
lemma Inv.grant (h : s.Inv) {hd : SessionHandled} (hgrant : s.session.Granted hd req) :
    (s.enter hd).Inv := by
  have hzero : s.starts = 0 := h.early (by rw [hgrant.ready]; rfl)
  have haccepted : (s.enter hd).accepted := by
    simp [enter, apply, h.ready hgrant.ready]
  have hsession : (s.enter hd).session = { s.session with spawned := true, state := .running } :=
    hgrant.session
  have hcount : (s.enter hd).starts = s.starts + 1 := by
    rw [starts, enter, hgrant.script, count_append]
    rfl
  have hpending : ∀ a, Pending (s.enter hd).threads a ↔
      Pending s.threads a ∨ a = .start req := by
    simp [enter, hgrant.script]
  have hcfg : (s.enter hd).session.cfg = s.session.cfg := by rw [hsession]
  refine ⟨?_, ?_, ?_, by omega, fun req' hreq' => ?_, h.started_le, fun pid hpid => ?_,
    fun pid hpid => ?_, fun hclosed pid hpid => ?_, fun hclose => ?_⟩
  · rw [hsession]
    exact h.authed
  · rw [hsession]
    intro hstate
    cases hstate
  · rw [hsession]
    intro hstate
    cases hstate
  · obtain hnew | hmem := hreq'
    · obtain hold | heq := (hpending _).mp hnew
      · exact (h.authorised req' (.inl hold)).mono hcfg fun _ => haccepted
      · cases heq
        refine ⟨haccepted, ?_, fun hforced => ?_⟩
        · rw [hcfg, hgrant.remoteIdentity]
          obtain hauthed | hall := hgrant.authed
          · exact h.authed hauthed
          · exact .inl hall
        · rw [hcfg] at hforced ⊢
          exact hgrant.forced hforced
    · exact (h.authorised req' (.inr hmem)).mono hcfg fun _ => haccepted
  · obtain hold | heq := (hpending _).mp hpid
    · exact h.attach_started pid hold
    · cases heq
  · rw [hpending, hsession]
    exact (h.held pid hpid).imp_left .inl
  · rw [hsession] at hclosed hpid
    obtain hkilled | hold := h.doomed hclosed pid hpid
    · exact .inl (mem_append_left _ hkilled)
    · exact .inr ((hpending _).mpr (.inl hold))
  · rw [hpending, hsession]
    exact (h.closing hclose).imp_left .inl

lemma Inv.handleMessage (h : s.Inv) (msg : RgoshMessage) : (s.step (.handleMessage msg)).Inv := by
  obtain hcalm | ⟨req, hgrant⟩ := s.session.handleMessage_cases msg
  · exact h.keeps (keeps_enter hcalm)
  · exact h.grant hgrant

lemma Inv.callClose (h : s.Inv) : (s.step .close).Inv := by
  rw [step]
  split
  · exact h
  · have hpending : ∀ a, Pending (s.threads ++ [[.cancel, .close]]) a ↔
        Pending s.threads a ∨ a = .cancel ∨ a = .close := by
      simp
    have hcount : count isStart (s.threads ++ [[.cancel, .close]]) =
        count isStart s.threads := by
      rw [count_append]
      rfl
    have hstarts : starts { s with
        closeCalled := true, threads := s.threads ++ [[.cancel, .close]] } = s.starts := by
      rw [starts, hcount, starts]
    refine ⟨h.authed, h.ready, fun hearly => hstarts.trans (h.early hearly),
      hstarts.trans_le h.once, fun req hreq => ?_, h.started_le, fun pid hpid => ?_,
      fun pid hpid => ?_, fun hclosed pid hpid => ?_, fun _ => .inl ((hpending _).mpr (by simp))⟩
    · refine (h.authorised req ?_).mono rfl id
      obtain hnew | hmem := hreq
      · exact .inl (by simpa using (hpending _).mp hnew)
      · exact .inr hmem
    · exact h.attach_started pid (by simpa using (hpending _).mp hpid)
    · exact (h.held pid hpid).imp_left fun hold => (hpending _).mpr (.inl hold)
    · exact (h.doomed hclosed pid hpid).imp_right fun hold => (hpending _).mpr (.inl hold)

/-! ## A thread goes on -/

section

variable {ts : List (List SessionAction)} {n : ℕ} {b : SessionAction}
variable {rest script : List SessionAction}

/-- What is not plain is pending after a step as before it, where the thread goes on with plain
actions. -/
lemma pending_set_iff (hn : ts[n]? = some (b :: rest)) (hscript : ∀ a ∈ script, a.plain)
    (ha : a.plain = false) (hne : a ≠ b) :
    Pending (ts.set n (script ++ rest)) a ↔ Pending ts a := by
  constructor
  · intro hpending
    exact (Pending.of_set hn hpending).resolve_right (not_mem_of_plain hscript ha)
  · intro hpending
    exact hpending.set hn hne

lemma count_set_eq (hn : ts[n]? = some (b :: rest)) (hscript : ∀ a ∈ script, a.plain)
    (hb : b.isStart = false) : count isStart (ts.set n (script ++ rest)) = count isStart ts := by
  have h := count_set hn isStart script
  rw [hb, countP_of_plain hscript] at h
  simpa using h

end

lemma keeps_run (hn : s.threads[n]? = some (b :: rest)) (hb : b.plain)
    (hscript : ∀ a ∈ script, a.plain) (hcalm : s.session.Calm ⟨s'.session, [], []⟩)
    (haccepted : s'.accepted =
      (s.accepted || (s.session.state = .waitVers && s'.session.state = .waitCmd)))
    (hattempts : s'.attempts = s.attempts) (hstarted : s'.started = s.started)
    (hclose : s'.closeCalled = s.closeCalled) (hcalls : s.calls ⊆ s'.calls)
    (hkill : ∀ pid, b = .call (.kill pid) → .kill pid ∈ s'.calls)
    (hthreads : s'.threads = s.threads.set n (script ++ rest)) : Keeps s s' := by
  have hafter : ∀ a, a.plain = false →
      (Pending s'.threads a ↔ Pending s.threads a) := by
    intro a ha
    rw [hthreads]
    refine pending_set_iff hn hscript ha ?_
    rintro rfl
    rw [hb] at ha
    cases ha
  exact
    { cfg := hcalm.cfg
      authed := hcalm.authed
      moves := hcalm.moves
      accepted := haccepted
      attempts := hattempts
      started := hstarted
      proc := hcalm.proc
      closed := hcalm.closed
      closeCalled := hclose
      count := by rw [hthreads, count_set_eq hn hscript (isStart_eq_false hb)]
      start := fun req => (hafter _ rfl).mp
      attach := fun pid => hafter _ rfl
      doomed := by
        rintro pid (hkilled | hpending)
        · exact .inl (hcalls hkilled)
        · by_cases heq : b = .call (.kill pid)
          · exact .inl (hkill pid heq)
          · refine .inr ?_
            rw [hthreads]
            exact hpending.set hn (symm heq)
      close := (hafter _ rfl).mpr }

lemma Inv.log (h : s.Inv) (hn : s.threads[n]? = some (b :: rest)) (hb : b.plain)
    (script : List SessionAction) (hscript : ∀ a ∈ script, a.plain)
    (sent : List RgoshMessage) (cancelled : Bool) (calls : List ProcessCall)
    (hkill : ∀ pid, b = .call (.kill pid) → .kill pid ∈ calls) :
    Inv { s with
      sent := sent
      cancelled := cancelled
      calls := s.calls ++ calls
      threads := s.threads.set n (script ++ rest) ++ [] } := by
  refine h.keeps (keeps_run hn hb hscript (calm_of_state (.refl _) (by simp)) ?_ rfl rfl
    rfl (subset_append_left _ _) (fun pid hpid => mem_append_right _ (hkill pid hpid))
    (append_nil _))
  cases s.session.state <;> simp

lemma Inv.locked (h : s.Inv) {hd : SessionHandled} (hn : s.threads[n]? = some (b :: rest))
    (hb : b.plain) (hkill : ∀ pid, b ≠ .call (.kill pid)) (hcalm : s.session.Calm hd) :
    Inv { s.apply hd with threads := s.threads.set n (hd.script ++ rest) ++ [] } := by
  exact h.keeps (keeps_run hn hb hcalm.script
    { hcalm with script := by simp } rfl rfl rfl rfl
    (subset_append_left _ _) (fun pid hpid => absurd hpid (hkill pid)) (append_nil _))

lemma Inv.start (h : s.Inv) (hn : s.threads[n]? = some (.start req :: rest))
    (started : List ℕ) (script : List SessionAction) (hscript : ∀ a ∈ script, a.isStart = false)
    (hlen : started.length ≤ 1) (hattach : ∀ pid, .attach pid ∈ script ↔ pid ∈ started) :
    Inv { s with
      attempts := s.attempts ++ [req]
      started := s.started ++ started
      threads := s.threads.set n (script ++ rest) } := by
  have hcount := count_set hn isStart script
  have hzero : script.countP isStart = 0 := by
    rw [countP_eq_zero]
    intro a ha
    simp [hscript a ha]
  have hstarts : starts { s with
      attempts := s.attempts ++ [req]
      threads := s.threads.set n (script ++ rest) } = s.starts := by
    simp only [starts, length_append, length_singleton]
    simp only [isStart, if_true] at hcount
    omega
  refine ⟨h.authed, h.ready, fun hearly => hstarts.trans (h.early hearly),
    hstarts.trans_le h.once, fun req' hreq' => ?_, ?_, fun pid hpid => ?_, fun pid hpid => ?_,
    fun hclosed pid hpid => ?_, fun hclose => ?_⟩
  · refine (h.authorised req' ?_).mono rfl id
    obtain hnew | hmem := hreq'
    · obtain hold | hmem := Threads.Pending.of_set hn hnew
      · exact .inl hold
      · cases hscript _ hmem
    · obtain hold | heq := mem_append.mp hmem
      · exact .inr hold
      · rw [mem_singleton.mp heq]
        exact .inl (pending_head hn)
  · have hle := h.started_le
    simp only [length_append, length_singleton]
    omega
  · obtain hold | hmem := Threads.Pending.of_set hn hpid
    · exact mem_append_left _ (h.attach_started pid hold)
    · exact mem_append_right _ ((hattach pid).mp hmem)
  · obtain hold | hnew := mem_append.mp hpid
    · exact (h.held pid hold).imp_left fun hpending => hpending.set hn (by simp)
    · exact .inl (pending_set_of_mem hn ((hattach pid).mpr hnew))
  · exact (h.doomed hclosed pid hpid).imp_right fun hpending => hpending.set hn (by simp)
  · exact (h.closing hclose).imp_left fun hpending => hpending.set hn (by simp)

lemma Inv.started_unique (h : s.Inv) {pid pid' : ℕ} (hpid : pid ∈ s.started)
    (hpid' : pid' ∈ s.started) : pid = pid' := by
  have hlen : s.started.length ≤ 1 :=
    h.started_le.trans ((Nat.le_add_right _ _).trans h.once)
  match hs : s.started with
  | [] =>
    rw [hs] at hpid
    cases hpid
  | [p] =>
    rw [hs] at hpid hpid'
    rw [mem_singleton.mp hpid, mem_singleton.mp hpid']
  | p :: q :: ps =>
    rw [hs] at hlen
    simp at hlen

lemma plain_attach (x : Session) (pid : ℕ) : ∀ a ∈ (x.attach pid).script, a.plain := by
  rw [Session.attach]
  split_ifs <;> simp [plain]

lemma plain_close (x : Session) : ∀ a ∈ x.close.script, a.plain := by
  rw [Session.close]
  cases x.proc <;> simp [plain]

lemma session_attach (x : Session) (pid : ℕ) : ∃ stdinPending stdinEOF, (x.attach pid).session =
    { x with proc := some pid, stdinPending, stdinEOF } := by
  rw [Session.attach]
  split
  · exact ⟨_, _, rfl⟩
  · exact ⟨_, _, rfl⟩

/-- **A process is attached.**  If the session is closed meanwhile, it is killed next. -/
lemma Inv.attach (h : s.Inv) {pid : ℕ} {spawned : List (List SessionAction)}
    (hn : s.threads[n]? = some (.attach pid :: rest)) (hspawned : ∀ a ∈ spawned.flatten, a.plain) :
    Inv { s.apply (s.session.attach pid) with
      threads := s.threads.set n ((s.session.attach pid).script ++ rest) ++ spawned } := by
  have hplain := plain_attach s.session pid
  have hstarted : pid ∈ s.started := h.attach_started pid (pending_head hn)
  have hpending : ∀ a, a.plain = false → a ≠ .attach pid →
      (Threads.Pending (s.threads.set n ((s.session.attach pid).script ++ rest) ++ spawned) a ↔
        Threads.Pending s.threads a) := by
    intro a ha hne
    rw [pending_append, pending_set_iff hn hplain ha hne]
    exact or_iff_left (not_mem_of_plain hspawned ha)
  have hstarts : starts { s.apply (s.session.attach pid) with
      threads := s.threads.set n ((s.session.attach pid).script ++ rest) ++ spawned } =
        s.starts := by
    have hnone : count isStart spawned = 0 := countP_of_plain hspawned
    simp only [starts]
    rw [count_append, count_set_eq hn hplain rfl, hnone]
    rfl
  obtain ⟨stdinPending, stdinEOF, hsession⟩ := session_attach s.session pid
  have hstate : (s.session.attach pid).session.state = s.session.state := by rw [hsession]
  have hclosed : (s.session.attach pid).session.closed = s.session.closed := by rw [hsession]
  have hcfg : (s.session.attach pid).session.cfg = s.session.cfg := by rw [hsession]
  have hproc : (s.session.attach pid).session.proc = some pid := by rw [hsession]
  refine ⟨?_, fun hready => ?_, fun hearly => ?_, hstarts.trans_le h.once, fun req hreq => ?_,
    h.started_le, fun pid' hpid => ?_, fun pid' hpid => ?_, fun hnow pid' hpid => ?_,
    fun hclose => ?_⟩
  · show (s.session.attach pid).session.authed → _
    simp only [apply]
    rw [hsession]
    exact h.authed
  · simp [apply, h.ready (hstate.symm.trans hready)]
  · exact hstarts.trans (h.early (hstate ▸ hearly))
  · refine (h.authorised req ?_).mono hcfg fun haccepted => by simp [apply, haccepted]
    exact hreq.imp_left (hpending _ rfl (by simp)).mp
  · by_cases heq : pid' = pid
    · exact heq ▸ hstarted
    · exact h.attach_started pid' ((hpending _ rfl (by simpa using heq)).mp hpid)
  · rw [h.started_unique hpid hstarted]
    exact .inr hproc
  · have heq : pid = pid' := Option.some.inj (hproc.symm.trans hpid)
    refine .inr ((pending_append _ _).mpr (.inl (pending_set_of_mem hn ?_)))
    simp [Session.attach, hclosed.symm.trans hnow, heq]
  · exact (h.closing hclose).imp (hpending _ rfl (by simp)).mpr hclosed.trans

/-- **The session is closed.**  A process that is attached is killed next. -/
lemma Inv.close (h : s.Inv) (hn : s.threads[n]? = some (.close :: rest)) :
    Inv { s.apply s.session.close with
      threads := s.threads.set n (s.session.close.script ++ rest) } := by
  have hplain := plain_close s.session
  have hstarts : starts { s.apply s.session.close with
      threads := s.threads.set n (s.session.close.script ++ rest) } = s.starts := by
    simp only [starts]
    rw [count_set_eq hn hplain rfl]
    rfl
  have hmoves : s.session.state.Moves s.session.close.session.state := by
    simp only [Session.close]
    split_ifs
    · exact .refl _
    · exact .ended _
  refine ⟨h.authed, fun hstate => ?_, fun hearly => ?_, hstarts.trans_le h.once,
    fun req hreq => ?_, h.started_le, fun pid hpid => ?_, fun pid hpid => ?_,
    fun _ pid hpid => ?_, fun _ => .inr rfl⟩
  · simp only [apply, Session.close] at hstate
    split_ifs at hstate with hend
    rw [hstate] at hend
    simp at hend
  · exact hstarts.trans (h.early (hmoves.early hearly))
  · refine (h.authorised req ?_).mono rfl fun haccepted => ?_
    · exact hreq.imp_left (pending_set_iff hn hplain rfl (by simp)).mp
    · simp [apply, haccepted]
  · exact h.attach_started pid ((pending_set_iff hn hplain rfl (by simp)).mp hpid)
  · exact (h.held pid hpid).imp_left (pending_set_iff hn hplain rfl (by simp)).mpr
  · refine .inr (pending_set_of_mem hn ?_)
    have hproc : s.session.proc = some pid := hpid
    simp [Session.close, hproc]

/-- **The next action of a thread** keeps the invariant. -/
lemma Inv.run (h : s.Inv) (n : ℕ) (outcome : SessionOutcome) : (s.run n outcome).Inv := by
  rw [SessionRun.run]
  match hn : s.threads[n]? with
  | none | some [] => exact h
  | some (a :: rest) =>
    cases a with
    | send msg =>
      have hsend := h.log hn rfl [] (by simp)
      cases outcome with
      | failed err => simpa [perform] using hsend s.sent s.cancelled [] (by simp)
      | _ => simpa [perform] using hsend (s.sent ++ [msg]) s.cancelled [] (by simp)
    | notify callback =>
      simpa [perform] using h.log hn rfl [] (by simp) s.sent s.cancelled [] (by simp)
    | call c =>
      refine h.log hn rfl [] (by simp) s.sent s.cancelled [c] fun pid hpid => ?_
      cases hpid
      exact mem_singleton_self _
    | cancel => simpa [perform] using h.log hn rfl [] (by simp) s.sent true [] (by simp)
    | wait pid =>
      have hstay := h.log hn rfl [.wait pid] (by simp [plain]) s.sent s.cancelled
      have hexit := fun code => h.log hn rfl
        [.send (.exit s.session.cfg.compat code), .finish code]
        (by simp [plain]) s.sent s.cancelled
      cases outcome with
      | exited code => simpa [perform] using hexit code [] (by simp)
      | cancelled code =>
        by_cases hcancelled : s.cancelled = true
        · simpa [perform, hcancelled] using hexit code [.kill pid] (by simp)
        · simpa [perform, hcancelled] using hstay [] (by simp)
      | _ => simpa [perform] using hstay [] (by simp)
    | startFailed err =>
      refine h.locked hn rfl (by simp) ⟨rfl, fun ha => .inl ⟨ha, rfl⟩, .failed _, rfl, rfl, ?_⟩
      simp [Session.startFailed, plain]
    | finish code =>
      refine h.locked hn rfl (by simp) ⟨rfl, fun ha => .inl ⟨ha, rfl⟩, .ended _, rfl, rfl, ?_⟩
      simp [Session.finish, plain]
    | close => simpa [perform] using h.close hn
    | attach pid =>
      refine h.attach hn ?_
      simp only [perform]
      split_ifs <;> simp [plain]
    | start req =>
      have hset : s.threads.set n (.start req :: rest) = s.threads := by
        obtain ⟨hlt, hget⟩ := List.getElem?_eq_some_iff.mp hn
        rw [← hget, set_getElem_self]
      cases outcome with
      | started pid =>
        simpa [perform] using h.start hn [pid] [.attach pid]
          (by simp [isStart]) (by simp) (by simp)
      | failed err =>
        simpa [perform] using h.start hn [] [.startFailed err]
          (by simp [isStart]) (by simp) (by simp)
      | _ => simpa [perform, hset] using h

/-- **One step** keeps the invariant. -/
lemma Inv.step (h : s.Inv) (e : SessionEvent) : (s.step e).Inv := by
  cases e with
  | setRemoteIdentity hash => exact h.keeps (keeps_enter (calm_setRemoteIdentity hash))
  | handleMessage msg => exact h.handleMessage msg
  | close => exact h.callClose
  | run n outcome => exact h.run n outcome

/-- **Only who is allowed may start a process**, in every interleaving of messages, identities,
`Close` and the threads of the session: one process at most, after a version was accepted, a forced
command as it is configured, and none that outlives `Close`. -/
theorem authorised (cfg : RgoshConfig) (hasStarter : Bool) (es : List SessionEvent) :
    Run.Always step Safe (new cfg hasStarter) es := by
  have hrun : Run.Always step Inv (new cfg hasStarter) es :=
    Run.always_of_step (fun _ e hs => hs.step e) (inv_new cfg hasStarter) es
  exact hrun.mono fun _ hs => hs.safe

def openConfig : RgoshConfig where
  compat := false
  allowAll := true
  allowed := []
  defaultCmd := ["sh"]
  forcedCommand := true
  remoteCmdAsArgs := false
  softwareVersion := ""
  capabilities := 0

def plainExec : RgoshExec where
  cmdline := []
  pipeStdin := true
  pipeStdout := true
  pipeStderr := true
  term := ""
  size := ⟨0, 0, 0, 0⟩

/-- **A process is started before the version of the session is sent**: the version of the peer is
handled, the command is handled while the reply has not been sent, and the reply fails after
that. -/
theorem start_before_reply :
    let s := Run.exec step (new openConfig true)
      [.handleMessage (.version ⟨false, "peer", 1, 0⟩), .handleMessage (.exec plainExec),
        .run 1 (.started 7), .run 0 (.failed "not sent")]
    s.started = [7] ∧ s.sent = [] ∧ s.threads = [[], [.attach 7]] := by
  decide +kernel

end SessionRun

end Reticulum

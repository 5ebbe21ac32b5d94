import Reticulum.Core.Bytes
import Reticulum.Core.Run
import Reticulum.Core.Threads

/-!
# Remote shell sessions

A listening node runs a command for a peer (`pkg/rgosh/session.go`).  The session waits for the
identity of the peer, for its version, and for the command, and then a process is running.  Only
sessions of a listener are modelled.

The lock is given back while a message is sent, and the process is started without it.  A call is
therefore a first section under the lock and a **script** of actions that the thread has still to
do.  `SessionRun` is a session with the threads that are under way.  Threads that send output do not
change the session.
-/

namespace Reticulum

namespace Rgosh.Constants

def protocolVersion : ℕ := 1
def compatProtocolVersion : ℕ := 1
def streamStdin : ℕ := 0
def maxStdinPending : ℕ := 64 * 1024
def capLineMode : ℕ := 1
def capCoalesce : ℕ := 2
def defaultSoftware : String := "rgosh"

end Rgosh.Constants

open Rgosh.Constants

/-! ## Messages -/

structure RgoshVersion where
  compat : Bool
  softwareVersion : String
  protocolVersion : ℕ
  capabilities : ℕ
deriving DecidableEq

structure RgoshWinSize where
  rows : ℤ
  cols : ℤ
  hPix : ℤ
  vPix : ℤ
deriving DecidableEq

structure RgoshExec where
  cmdline : List String
  pipeStdin : Bool
  pipeStdout : Bool
  pipeStderr : Bool
  term : String
  size : RgoshWinSize
deriving DecidableEq

structure ExecRequest where
  exec : RgoshExec
  remoteIdentity : Bytes
deriving DecidableEq

structure RgoshStream where
  streamID : ℕ
  data : Bytes
  eof : Bool
deriving DecidableEq

inductive RgoshMessage where
  | noop (compat : Bool)
  | version (m : RgoshVersion)
  | authOK
  | authDenied (reason : String)
  | exec (m : RgoshExec)
  | stream (m : RgoshStream)
  | winSize (m : RgoshWinSize)
  | exit (compat : Bool) (returnCode : ℤ)
  | error (compat : Bool) (msg : String) (fatal : Bool)
deriving DecidableEq

/-! ## The session -/

structure RgoshConfig where
  compat : Bool
  allowAll : Bool
  allowed : List Bytes
  defaultCmd : List String
  forcedCommand : Bool
  remoteCmdAsArgs : Bool
  softwareVersion : String
  capabilities : ℕ
deriving DecidableEq

inductive SessionState where
  | waitIdent
  | waitVers
  | waitCmd
  | running
  | error
  | teardown
deriving DecidableEq

/-- A process is known by a number. -/
structure Session where
  cfg : RgoshConfig
  state : SessionState
  remoteHash : Bytes
  authed : Bool
  /-- `StartProcess` is set -/
  hasStarter : Bool
  proc : Option ℕ
  spawned : Bool
  closed : Bool
  stdinPending : Bytes
  stdinEOF : Bool
deriving DecidableEq

inductive SessionCallback where
  | onAuthDenied (reason : String)
  | onError (msg : String) (fatal : Bool)
  | onExit (code : ℤ)
  | onTeardown
deriving DecidableEq

inductive ProcessCall where
  | writeStdin (pid : ℕ) (data : Bytes)
  | closeStdin (pid : ℕ)
  | setWinSize (pid : ℕ) (size : RgoshWinSize)
  | kill (pid : ℕ)
deriving DecidableEq

/-- What a thread has to do next.  `attach`, `startFailed`, `finish` and `close` are sections under
the lock. -/
inductive SessionAction where
  | send (msg : RgoshMessage)
  | notify (callback : SessionCallback)
  | call (c : ProcessCall)
  | start (req : ExecRequest)
  | attach (pid : ℕ)
  | startFailed (err : String)
  | wait (pid : ℕ)
  | finish (code : ℤ)
  | cancel
  | close
deriving DecidableEq

/-- What a section under the lock results in: the session, what was done to the process meanwhile,
and what the thread does after it. -/
structure SessionHandled where
  session : Session
  calls : List ProcessCall
  script : List SessionAction
deriving DecidableEq

namespace Session

def new (cfg : RgoshConfig) (hasStarter : Bool) : Session where
  cfg := { cfg with
    softwareVersion := if cfg.softwareVersion = "" then defaultSoftware else cfg.softwareVersion
    capabilities := if cfg.capabilities = 0 then capLineMode + capCoalesce else cfg.capabilities }
  state := if cfg.allowAll then .waitVers else .waitIdent
  remoteHash := []
  authed := cfg.allowAll
  hasStarter
  proc := none
  spawned := false
  closed := false
  stdinPending := []
  stdinEOF := false

variable (s : Session)

def ignore : SessionHandled := ⟨s, [], []⟩

def identify (hash : Bytes) : Session :=
  { s with authed := true, remoteHash := hash, state := .waitVers }

def denyIdentity (reason : String) : SessionHandled where
  session := { s with state := .teardown, authed := false }
  calls := []
  script :=
    [.send (.authDenied reason)] ++
    (if s.cfg.compat then [.send (.error true reason true)] else []) ++
    [.notify (.onAuthDenied reason), .notify .onTeardown]

def setRemoteIdentity (hash : Bytes) : SessionHandled :=
  if s.state ≠ .waitIdent ∧ s.state ≠ .waitVers then s.ignore
  else if s.cfg.allowAll then ⟨s.identify hash, [], []⟩
  else if hash ∉ s.cfg.allowed then s.denyIdentity "identity not allowed"
  else ⟨s.identify hash, [], if s.cfg.compat then [] else [.send .authOK]⟩

def denyProtocol (reason : String) : SessionHandled where
  session := { s with state := .teardown, authed := false }
  calls := []
  script :=
    (if s.cfg.compat then [] else [.send (.authDenied reason)]) ++
    [.send (.error s.cfg.compat reason true), .notify .onTeardown]

def versionReply : RgoshVersion where
  compat := s.cfg.compat
  softwareVersion := s.cfg.softwareVersion
  protocolVersion := if s.cfg.compat then compatProtocolVersion else protocolVersion
  capabilities := s.cfg.capabilities

def handleVersion : SessionHandled :=
  if s.state = .waitCmd ∨ s.state = .running then
    ⟨s, [], [.send (.version s.versionReply)]⟩
  else if s.state ≠ .waitVers then s.denyProtocol "version in wrong state"
  else if !s.authed && !s.cfg.allowAll then s.denyProtocol "not authenticated"
  else ⟨{ s with state := .waitCmd }, [], [.send (.version s.versionReply)]⟩

def resolve (cfg : RgoshConfig) (cmdline : List String) : List String :=
  if cfg.forcedCommand then cfg.defaultCmd
  else if cfg.remoteCmdAsArgs ∧ cmdline ≠ [] then cfg.defaultCmd ++ cmdline
  else if cmdline = [] then cfg.defaultCmd
  else cmdline

def handleExec (m : RgoshExec) : SessionHandled :=
  let cmdline := resolve s.cfg m.cmdline
  if s.state ≠ .waitCmd then s.denyProtocol "exec before ready"
  else if !s.authed && !s.cfg.allowAll then s.denyProtocol "exec without auth"
  else if s.cfg.forcedCommand ∧ m.cmdline ≠ [] then
    s.denyProtocol "Remote command line not allowed by listener"
  else if cmdline = [] then s.denyProtocol "empty command"
  else if !s.hasStarter then s.denyProtocol "no process starter"
  else
    { session := { s with spawned := true, state := .running }
      calls := []
      script := [.start { exec := { m with cmdline }, remoteIdentity := s.remoteHash }] }

def handleStream (m : RgoshStream) : SessionHandled :=
  if s.state ≠ .running then s.ignore
  else if m.streamID ≠ streamStdin then s.ignore
  else
    match s.proc with
    | none =>
      let room := maxStdinPending - s.stdinPending.length
      { session := { s with
          stdinPending := s.stdinPending ++ m.data.take room
          stdinEOF := s.stdinEOF || m.eof }
        calls := []
        script := [] }
    | some pid =>
      { session := s
        calls := (if m.data = [] then [] else [.writeStdin pid m.data]) ++
          (if m.eof then [.closeStdin pid] else [])
        script := [] }

def handleWinSize (m : RgoshWinSize) : SessionHandled :=
  match s.proc with
  | none => s.ignore
  | some pid => if s.state ≠ .running then s.ignore else ⟨s, [.setWinSize pid m], []⟩

/-- `HandleMessage` up to the first message that is sent, or to its end. -/
def handleMessage (msg : RgoshMessage) : SessionHandled :=
  if s.state = .teardown ∨ s.state = .error then s.ignore
  else
    match msg with
    | .noop _ => ⟨s, [], [.send (.noop s.cfg.compat)]⟩
    | .version _ => s.handleVersion
    | .authOK => s.ignore
    | .authDenied reason =>
      ⟨{ s with state := .teardown }, [], [.notify (.onAuthDenied reason), .notify .onTeardown]⟩
    | .exec m => s.handleExec m
    | .stream m => s.handleStream m
    | .winSize m => s.handleWinSize m
    | .exit _ _ => s.ignore
    | .error _ msg fatal =>
      ⟨if fatal then { s with state := .error } else s, [], [.notify (.onError msg fatal)]⟩

def attach (pid : ℕ) : SessionHandled :=
  if s.closed then ⟨{ s with proc := some pid }, [], [.call (.kill pid)]⟩
  else
    { session := { s with proc := some pid, stdinPending := [], stdinEOF := false }
      calls := []
      script :=
        (if s.stdinPending = [] then [] else [.call (.writeStdin pid s.stdinPending)]) ++
        (if s.stdinEOF then [.call (.closeStdin pid)] else []) }

def startFailed (err : String) : SessionHandled where
  session := { s with spawned := false, state := .error }
  calls := []
  script := [.send (.error s.cfg.compat err true)]

def close : SessionHandled where
  session := { s with
    closed := true
    state := if s.state = .teardown ∨ s.state = .error then s.state else .teardown }
  calls := []
  script :=
    match s.proc with
    | none => []
    | some pid => [.call (.kill pid)]

def finish (code : ℤ) : SessionHandled where
  session := { s with state := .teardown }
  calls := []
  script := [.notify (.onExit code), .notify .onTeardown]

end Session

/-! ## Threads -/

structure SessionRun where
  session : Session
  threads : List (List SessionAction)
  /-- `closeOnce` has been used -/
  closeCalled : Bool
  /-- the context of the session is cancelled -/
  cancelled : Bool
  /-- a version of the peer was accepted -/
  accepted : Bool
  sent : List RgoshMessage
  /-- the calls of `StartProcess`, and the processes that it has returned -/
  attempts : List ExecRequest
  started : List ℕ
  calls : List ProcessCall
deriving DecidableEq

/-- How an action ends: it is done, it fails, a process is started or ends, or the context is
cancelled meanwhile. -/
inductive SessionOutcome where
  | done
  | failed (err : String)
  | started (pid : ℕ)
  | exited (code : ℤ)
  | cancelled (code : ℤ)
deriving DecidableEq

inductive SessionEvent where
  | setRemoteIdentity (hash : Bytes)
  | handleMessage (msg : RgoshMessage)
  | close
  | run (n : ℕ) (outcome : SessionOutcome)
deriving DecidableEq

namespace SessionRun

def new (cfg : RgoshConfig) (hasStarter : Bool) : SessionRun where
  session := .new cfg hasStarter
  threads := []
  closeCalled := false
  cancelled := false
  accepted := false
  sent := []
  attempts := []
  started := []
  calls := []

variable (s : SessionRun)

def apply (h : SessionHandled) : SessionRun :=
  { s with
    session := h.session
    calls := s.calls ++ h.calls
    accepted := s.accepted || (s.session.state = .waitVers && h.session.state = .waitCmd) }

def enter (h : SessionHandled) : SessionRun :=
  { s.apply h with threads := s.threads ++ [h.script] }

/-- What an action does, what the thread does in the place of it, and the threads that are
started. -/
def perform (a : SessionAction) (outcome : SessionOutcome) :
    SessionRun × List SessionAction × List (List SessionAction) :=
  match a, outcome with
  | .send _, .failed _ => (s, [], [])
  | .send msg, _ => ({ s with sent := s.sent ++ [msg] }, [], [])
  | .notify _, _ => (s, [], [])
  | .call c, _ => ({ s with calls := s.calls ++ [c] }, [], [])
  | .start req, .started pid =>
    ({ s with attempts := s.attempts ++ [req], started := s.started ++ [pid] }, [.attach pid], [])
  | .start req, .failed err =>
    ({ s with attempts := s.attempts ++ [req] }, [.startFailed err], [])
  | .start req, _ => (s, [.start req], [])
  | .attach pid, _ =>
    let h := s.session.attach pid
    -- `pumpProcess` is started as a thread of its own, unless the session is closed
    (s.apply h, h.script, if s.session.closed then [] else [[.wait pid]])
  | .startFailed err, _ =>
    let h := s.session.startFailed err
    (s.apply h, h.script, [])
  | .wait _, .exited code =>
    (s, [.send (.exit s.session.cfg.compat code), .finish code], [])
  | .wait pid, .cancelled code =>
    if s.cancelled then
      ({ s with calls := s.calls ++ [.kill pid] },
        [.send (.exit s.session.cfg.compat code), .finish code], [])
    else (s, [.wait pid], [])
  | .wait pid, _ => (s, [.wait pid], [])
  | .finish code, _ =>
    let h := s.session.finish code
    (s.apply h, h.script, [])
  | .cancel, _ => ({ s with cancelled := true }, [], [])
  | .close, _ =>
    let h := s.session.close
    (s.apply h, h.script, [])

def run (n : ℕ) (outcome : SessionOutcome) : SessionRun :=
  match s.threads[n]? with
  | some (a :: rest) =>
    let r := s.perform a outcome
    { r.1 with threads := s.threads.set n (r.2.1 ++ rest) ++ r.2.2 }
  | _ => s

def step : SessionEvent → SessionRun
  | .setRemoteIdentity hash => s.enter (s.session.setRemoteIdentity hash)
  | .handleMessage msg => s.enter (s.session.handleMessage msg)
  | .close =>
    if s.closeCalled then s
    else { s with closeCalled := true, threads := s.threads ++ [[.cancel, .close]] }
  | .run n outcome => s.run n outcome

end SessionRun

end Reticulum

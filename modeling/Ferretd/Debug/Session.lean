import Ferretd.Library.Broadcast
import Ferretd.Exec.Runtime
import Ferretd.Lifecycle

/-!
# Debug sessions

The retained state of one debugger child: every definition is one critical section
of `session.mu`.  Debugger commands run outside the lock; what they return comes in
through `runCommand`.
-/

namespace Ferretd.Debug

open Library.Broadcast
open Ferretd.Exec (RuntimeInput)

inductive State where
  | created
  | running
  | stopped
  | completed
  | failed
  | terminated
deriving DecidableEq

def State.terminal : State → Bool
  | .completed | .failed | .terminated => true
  | .created | .running | .stopped => false

inductive EventKind where
  | created
  | running
  | stopped
  | completed
  | failed
  | terminated

def State.kind : State → EventKind
  | .created => .created
  | .running => .running
  | .stopped => .stopped
  | .completed => .completed
  | .failed => .failed
  | .terminated => .terminated

/-- `apidebugger.Reason`, a string in the source; a session without a reason holds
the empty string, which is `none` here. -/
inductive Reason where
  | entry
  | breakpoint
  | step
  | pause
  | runtimeError
  | completed
  | terminated
  | other (text : String)
deriving DecidableEq

/-- `apisource.Location`; the zero value is no location. -/
structure Location where
  sourceName : String
  position : SourcePosition
deriving DecidableEq

def Location.zero : Location :=
  ⟨"", ⟨0, 0⟩⟩

/-- `apidebugger.Event`. -/
structure RuntimeEvent where
  reason : Reason
  location : Location
  hitBreakpointIDs : List Nat
  output : Option Output
  error : GoError

structure SessionSnapshot where
  id : Nat
  executionSession : Nat
  state : State
  reason : Option Reason
  location : Location
  hitBreakpointIDs : List Nat
  parameters : Parameters
  options : RuntimeOptions
  output : Option Output
  failure : Option RuntimeFailure

structure Event where
  session : Nat
  sequence : Nat
  kind : EventKind
  snapshot : SessionSnapshot

def Event.terminal (event : Event) : Bool :=
  event.snapshot.state.terminal

def watcherBufferSize : Nat := 8

/-- What a session uses of its `exec.DebugRuntime`. -/
structure RuntimeView where
  ref : Nat
  sessionID : Nat
  input : RuntimeInput
  materialize : GoError → RuntimeFailure

def RuntimeView.materializeFailure (runtime : RuntimeView) (err : GoError) :
    Option RuntimeFailure :=
  if err = [] then none else some (runtime.materialize err)

/-- `session`.  `terminalDone` counts how often its channel was closed; `watchers`
are the subscriptions ever made, of which the registered ones form the source's
map. -/
structure Session where
  id : Nat
  runtime : RuntimeView
  state : State
  reason : Option Reason
  location : Location
  hitBreakpointIDs : List Nat
  output : Option Output
  failure : Option RuntimeFailure
  terminating : Bool
  close : CloseOperation
  terminalDone : Nat
  sequence : Nat
  lastEvent : Event
  watchers : Hub Event Cause

namespace Session

variable {err : GoError} (s : Session)

def snapshotLocked : SessionSnapshot where
  id := s.id
  executionSession := s.runtime.sessionID
  state := s.state
  reason := s.reason
  location := s.location
  hitBreakpointIDs := s.hitBreakpointIDs
  parameters := s.runtime.input.parameters.clone
  options := s.runtime.input.options
  output := s.output
  failure := s.failure

def nextEvent (kind : EventKind) : Event where
  session := s.id
  sequence := s.sequence + 1
  kind := kind
  snapshot := s.snapshotLocked

def publishLocked (kind : EventKind) (terminal : Bool) :
    Session :=
  let event := s.nextEvent kind
  { s with
    sequence := s.sequence + 1
    lastEvent := event
    watchers := s.watchers.publish .debugWatcherLagged terminal event
    terminalDone :=
      if terminal then s.terminalDone + 1 else s.terminalDone }

def newSession (id : Nat) (runtime : RuntimeView) : Session :=
  publishLocked
    { id := id
      runtime := runtime
      state := .created
      reason := none
      location := .zero
      hitBreakpointIDs := []
      output := none
      failure := none
      terminating := false
      close := CloseOperation.new
      terminalDone := 0
      sequence := 0
      lastEvent := ⟨id, 0, .created, ⟨id, runtime.sessionID, .created, none, .zero,
        [], runtime.input.parameters, runtime.input.options, none, none⟩⟩
      watchers := fun _ => none }
    .created false

/-- The critical section of `startCommand`; on success the caller starts the
goroutine of `runCommand`. -/
def startCommand (ctxErr : GoError) (expected : State) :
    Except GoError (SessionSnapshot × Session) :=
  if ctxErr ≠ [] then
    .error ctxErr
  else if s.terminating || s.close.started then
    .error [.debugSessionTerminal]
  else if s.state ≠ expected then
    if s.state = .running then
      .error [.debugSessionRunning]
    else
      .error [.debugSessionTerminal]
  else
    let started :=
      { s with
        state := .running
        reason := none
        location := .zero
        hitBreakpointIDs := []
        failure := none }.publishLocked .running false
    .ok (started.snapshotLocked, started)

def stopLocked (reason : Reason) : Session :=
  { s with
    reason := some reason
    failure := none
    state := .stopped }.publishLocked .stopped false

def failLocked (err : GoError) : Session :=
  { s with
    state := .failed
    failure := s.runtime.materializeFailure err }.publishLocked .failed true

variable (event : Option RuntimeEvent)

def applyRuntimeEventLocked (runtimeErrorResume : Bool) : Session :=
  match event with
  | none => s.failLocked [.message "debug execution returned no event"]
  | some event =>
    let located := { s with location := event.location }
    match event.reason with
    | .entry => located.stopLocked .entry
    | .breakpoint =>
      { located with
        hitBreakpointIDs := event.hitBreakpointIDs }.stopLocked .breakpoint
    | .step => located.stopLocked .step
    | .pause => located.stopLocked .pause
    | .runtimeError =>
      { located with
        reason := some .runtimeError
        state := .stopped
        failure := s.runtime.materializeFailure event.error
        }.publishLocked .stopped false
    | .completed =>
      { located with
        state := .completed
        output := event.output }.publishLocked .completed true
    | .terminated =>
      if runtimeErrorResume ∧ event.error ≠ [] ∧ s.terminating = false then
        located.failLocked event.error
      else
        { located with state := .terminated }.publishLocked .terminated true
    | .other _ =>
      located.failLocked [.message "debug execution returned an unknown event"]

/-- The critical section of `runCommand`, with what the command returned. -/
def runCommand (err : GoError)
    (runtimeErrorResume : Bool) : Session :=
  if s.state ≠ .running then
    s
  else if err ≠ [] then
    let retained :=
      match event with
      | none => s
      | some event => { s with output := event.output }
    if s.terminating then
      { retained with state := .terminated }.publishLocked .terminated true
    else
      retained.failLocked err
  else
    s.applyRuntimeEventLocked event runtimeErrorResume

/-- `requestTermination`; the Boolean says that the goroutine of `terminate` is
started. -/
def requestTermination : Bool × Session :=
  if s.state.terminal || s.terminating then
    (false, s)
  else
    (true, { s with terminating := true })

/-- The critical section of `terminate`. -/
def terminate : Session :=
  if s.state.terminal then
    s
  else
    { s with
      state := .terminated
      reason := none
      location := .zero
      failure := none }.publishLocked .terminated true

def beginClose : Bool × Session :=
  (s.close.begin.1, { s with close := s.close.begin.2 })

/-- The last critical section of `settleClose`. -/
def releaseWatchers : Session :=
  { s with watchers := s.watchers.releaseAll }

/-- `completeClose`, with what `runtime.Close` returned. -/
def completeClose (err : GoError) : Except Panic Session :=
  (s.close.finish err).map fun close => { s with close := close }

theorem completeClose_ok {s closed : Session} (completed : s.completeClose err = .ok closed) :
    ∃ close, s.close.finish err = .ok close ∧ closed = { s with close := close } := by
  unfold completeClose at completed
  cases finished : s.close.finish err with
  | error => simp [finished, Except.map] at completed
  | ok close =>
    rw [finished] at completed
    cases completed
    exact ⟨close, rfl, rfl⟩

def subscribe (handle : Nat) : Session :=
  { s with
    watchers := s.watchers.insert handle <|
      if s.state.terminal then
        Subscriber.late s.lastEvent
      else
        Subscriber.live watcherBufferSize s.lastEvent }

end Session

end Ferretd.Debug

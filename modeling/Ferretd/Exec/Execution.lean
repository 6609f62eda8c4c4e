import Ferretd.Library.Broadcast
import Ferretd.Exec.Runtime
import Ferretd.Lifecycle

/-!
# Executions

One isolated, one-shot invocation: its state, its result and its watchers.  Every
definition here is one critical section of `execution.mu`.
-/

namespace Ferretd.Exec

open Library.Broadcast

inductive State where
  | created
  | running
  | completed
  | failed
  | cancelled
deriving DecidableEq

def State.terminal : State → Bool
  | .completed | .failed | .cancelled => true
  | .created | .running => false

inductive EventKind where
  | created
  | started
  | completed
  | failed
  | cancelled

def State.kind : State → EventKind
  | .created => .created
  | .running => .started
  | .completed => .completed
  | .failed => .failed
  | .cancelled => .cancelled

structure Failure where
  category : FailureCategory
  details : RuntimeFailure

structure ExecutionSnapshot where
  id : Nat
  session : Nat
  state : State
  parameters : Parameters
  options : RuntimeOptions
  output : Option Output
  failure : Option Failure

structure Event where
  execution : Nat
  sequence : Nat
  kind : EventKind
  snapshot : ExecutionSnapshot

namespace Event

def terminal (event : Event) : Bool :=
  event.snapshot.state.terminal

/-- The kind of the event is the one of the state it reports. -/
def KindAgrees (event : Event) : Prop :=
  event.kind = event.snapshot.state.kind

end Event

def watcherBufferSize : Nat := 8

/-- `execution`.  `runDone` counts how often its channel was closed; `watchers` are
the subscriptions ever made, of which the registered ones form the source's map. -/
structure Execution where
  id : Nat
  runtime : ExecutionRuntime
  state : State
  output : Option Output
  failure : Option Failure
  runDone : Nat
  close : CloseOperation
  sequence : Nat
  lastEvent : Event
  watchers : Hub Event Cause

namespace Execution

variable (e : Execution)

def snapshotLocked : ExecutionSnapshot where
  id := e.id
  session := e.runtime.target.sessionID
  state := e.state
  parameters := e.runtime.input.parameters.clone
  options := e.runtime.input.options
  output := e.output
  failure := e.failure

def nextEvent (kind : EventKind) : Event where
  execution := e.id
  sequence := e.sequence + 1
  kind := kind
  snapshot := e.snapshotLocked

def publishLocked (kind : EventKind) (terminal : Bool) :
    Execution :=
  let event := e.nextEvent kind
  { e with
    sequence := e.sequence + 1
    lastEvent := event
    watchers := e.watchers.publish .execWatcherLagged terminal event
    runDone := if terminal then e.runDone + 1 else e.runDone }

/-- `newExecution`; the event before the first publication is never seen. -/
def newExecution (id : Nat) (runtime : ExecutionRuntime) : Execution :=
  publishLocked
    { id := id
      runtime := runtime
      state := .created
      output := none
      failure := none
      runDone := 0
      close := CloseOperation.new
      sequence := 0
      lastEvent := ⟨id, 0, .created, ⟨id, runtime.target.sessionID, .created,
        runtime.input.parameters, runtime.input.options, none, none⟩⟩
      watchers := fun _ => none }
    .created false

/-- `start`; on success the caller starts the goroutine of `run`. -/
def start (ctxErr : GoError) :
    Except GoError (ExecutionSnapshot × Execution) :=
  if ctxErr ≠ [] then
    .error ctxErr
  else
    match e.state with
    | .created =>
      let started := { e with state := .running }.publishLocked .started false
      .ok (started.snapshotLocked, started)
    | .running => .error [.execExecutionRunning]
    | _ => .error [.execExecutionTerminal]

def cancel : Execution :=
  match e.state with
  | .created =>
    { e with
      runtime := e.runtime.cancel
      state := .cancelled }.publishLocked .cancelled true
  | .running => { e with runtime := e.runtime.cancel }
  | _ => e

def finish (result : RunResult) : Execution :=
  if e.state ≠ .running then
    e
  else
    let retained := { e with output := result.output }
    if result.err = [] then
      { retained with state := .completed }.publishLocked .completed true
    else if result.err.is .contextCanceled ∧ e.runtime.cause ≠ [] then
      { retained with state := .cancelled }.publishLocked .cancelled true
    else
      { retained with
        state := .failed
        failure := some ⟨result.category,
          e.runtime.materialize result.err⟩ }.publishLocked .failed true

/-- `subscribe`, under the handle its caller is given. -/
def subscribe (handle : Nat) : Execution :=
  { e with
    watchers := e.watchers.insert handle <|
      if e.state.terminal then
        Subscriber.late e.lastEvent
      else
        Subscriber.live watcherBufferSize e.lastEvent }

def beginClose : Bool × Execution :=
  (e.close.begin.1, { e with close := e.close.begin.2 })

/-- The last critical section of `settleClose`. -/
def releaseWatchers : Execution :=
  { e with watchers := e.watchers.releaseAll }

def completeClose (err : GoError) :
    Except Panic Execution :=
  (e.close.finish err).map fun close => { e with close := close }

end Execution

/-- The control points of `settleClose` and `completeClose`. -/
inductive ClosePC where
  | cancel
  | awaitRun
  | enterClose
  | returnClose
  | releaseWatchers (err : GoError)
  | complete (err : GoError)

/-- One step of the teardown before `completeClose`; the last component is the
session whose `Close` is called. -/
def settleStep (e : Execution) (answer : Answer) :
    ClosePC → Option (Execution × ClosePC × Option Nat)
  | .cancel => some (e.cancel, .awaitRun, none)
  | .awaitRun =>
    -- `<-e.runDone`
    if e.runDone = 0 then none else some (e, .enterClose, none)
  | .enterClose =>
    match e.runtime.enterClose with
    | none => none
    | some (entered, some session) =>
      some ({ e with runtime := entered }, .returnClose, some session)
    | some (entered, none) =>
      some ({ e with runtime := entered }, .releaseWatchers entered.closeErr, none)
  | .returnClose =>
    some ({ e with runtime := e.runtime.returnClose answer.err },
      .releaseWatchers answer.err, none)
  | .releaseWatchers err => some (e.releaseWatchers, .complete err, none)
  | .complete _ => none

end Ferretd.Exec

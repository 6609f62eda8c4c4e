import Ferretd.Errors
import Ferretd.Library.Machine
import Ferretd.Library.Tally

/-!
# The daemon

`Daemon` with the calls of `Start` and `Stop` that are under way and the goroutines of
`startCleanup`.  A step is one critical section, one call of a service or one channel
operation; what a service returns comes in as an answer.
-/

namespace Ferretd.Daemons

open Library

inductive LifecycleState where
  | new
  | starting
  | running
  | stopping
  | stopped
deriving DecidableEq

/-- The control points of `Start`.  A listener is known by the number of listeners bound
before it. -/
inductive StartPC where
  | checkContext
  | begin
  | listen
  | listenFailed (err : GoError)
  | cleanUpFailed (err : GoError)
  | awaitStop (err : GoError)
  | bound (listener : Nat)
  | cleanUpBound (listener : Nat)
  | ready
  | serving
  | returned (err : GoError)

/-- The control points of `Stop` and of the `waitForStop` it ends with. -/
inductive StopPC where
  | begin
  | cleanUp (listener : Option Nat) (serving : Bool)
  | waiting
  | stopResult
  | returned (err : GoError)
  | cancelled (err : GoError)

/-- The control points of the goroutine of `startCleanup`.  `workspaces.Clear` and
`grpc.Stop` begin with a section that takes effect and then wait. -/
inductive CleanupPC where
  | setNotServing
  | closeExecutions
  | clearWorkspaces
  | awaitWorkspaces
  | stopGrpc
  | drainGrpc
  | closeListener
  | closeRuntime
  | finishStop
  | finished

/-- A goroutine of `startCleanup`, with its arguments and the errors joined so far. -/
structure Cleanup where
  listener : Option Nat
  serving : Bool
  pc : CleanupPC
  result : GoError

/-- `Daemon`.  `stopDone` counts how often its channel was closed; `listeners` says of each
listener that was bound whether it is closed.  `serves` and `drains` are the state of the
gRPC server: `Serve` was called, and `GracefulStop` was.  `executionsClosed`,
`workspacesClosed` and `runtimeClosed` record the calls of the services that returned. -/
structure Daemon where
  state : LifecycleState
  listener : Option Nat
  stopErr : GoError
  stopDone : Nat
  shutdown : Bool
  starts : List StartPC
  stops : List StopPC
  cleanups : List Cleanup
  listeners : List Bool
  healthy : Bool
  serves : Bool
  drains : Bool
  executionsClosed : Bool
  workspacesClosed : Bool
  runtimeClosed : Nat

/-- What a step is told: the state of the caller's context, the error of a call, and the
result of `Serve` when it has one. -/
structure Reply where
  ctxErr : GoError
  err : GoError
  served : Option GoError

def Reply.quiet : Reply :=
  ⟨[], [], none⟩

inductive Action where
  | start
  | startStep (index : Nat) (reply : Reply)
  | stop
  | stopStep (index : Nat) (reply : Reply)
  | cleanup (index : Nat) (reply : Reply)
  | requestShutdown

namespace Daemon

/-- `newDaemon`. -/
def new : Daemon where
  state := .new
  listener := none
  stopErr := []
  stopDone := 0
  shutdown := false
  starts := []
  stops := []
  cleanups := []
  listeners := []
  healthy := false
  serves := false
  drains := false
  executionsClosed := false
  workspacesClosed := false
  runtimeClosed := 0

section

variable (d : Daemon)

section

variable (index : Nat)

/-- A call of `Start` goes on. -/
def startGoes (pc : StartPC) : Daemon :=
  { d with starts := d.starts.set index pc }

/-- A call of `Stop` goes on. -/
def stopGoes (pc : StopPC) : Daemon :=
  { d with stops := d.stops.set index pc }

def startCleanup (listener : Option Nat) (serving : Bool) : Daemon :=
  { d with
    cleanups := d.cleanups ++ [⟨listener, serving, .setNotServing, []⟩] }

def startStep (reply : Reply) : StartPC → Option Daemon
  | .checkContext =>
    some (d.startGoes index (if reply.ctxErr = [] then .begin else .returned []))
  | .begin =>
    if d.state ≠ .new then
      some (d.startGoes index (.returned [.message "daemon has already been started"]))
    else
      some ({ d with state := .starting }.startGoes index .listen)
  | .listen =>
    if reply.err = [] then
      some ({ d with listeners := d.listeners ++ [false] }.startGoes index
        (.bound d.listeners.length))
    else
      some (d.startGoes index (.listenFailed reply.err))
  | .listenFailed err =>
    some ({ d with state := .stopping }.startGoes index (.cleanUpFailed err))
  | .cleanUpFailed err =>
    some ((d.startCleanup none false).startGoes index (.awaitStop err))
  | .awaitStop err =>
    -- `<-stopDone`
    if d.stopDone = 0 then none else some (d.startGoes index (.returned err))
  | .bound listener =>
    if d.state = .stopping then
      some (d.startGoes index (.cleanUpBound listener))
    else
      some ({ d with
        listener := some listener
        state := .running
        healthy := true }.startGoes index .ready)
  | .cleanUpBound listener =>
    some ((d.startCleanup (some listener) false).startGoes index (.returned []))
  | .ready => some ({ d with serves := true }.startGoes index .serving)
  | .serving =>
    -- the three cases of the `select`; a stopped server is served without an error
    if reply.ctxErr ≠ [] then
      some (d.startGoes index (.returned []))
    else
      match reply.served with
      | some err => some (d.startGoes index (.returned err))
      | none =>
        if d.shutdown then some (d.startGoes index (.returned [])) else none
  | .returned _ => none

def stopStep (reply : Reply) : StopPC → Option Daemon
  | .begin =>
    match d.state with
    | .new =>
      some ({ d with state := .stopping }.stopGoes index (.cleanUp none false))
    | .starting => some ({ d with state := .stopping }.stopGoes index .waiting)
    | .running =>
      some ({ d with state := .stopping }.stopGoes index (.cleanUp d.listener true))
    | .stopping => some (d.stopGoes index .waiting)
    | .stopped => some (d.stopGoes index (.returned d.stopErr))
  | .cleanUp listener serving =>
    some ((d.startCleanup listener serving).stopGoes index .waiting)
  | .waiting =>
    -- the two cases of the `select` of `waitForStop`
    if reply.ctxErr ≠ [] then
      some (d.stopGoes index (.cancelled reply.ctxErr))
    else if d.stopDone = 0 then
      none
    else
      some (d.stopGoes index .stopResult)
  | .stopResult => some (d.stopGoes index (.returned d.stopErr))
  | .returned _ | .cancelled _ => none

/-- A cleanup goes on, with the error of the call it has made. -/
def cleanupGoes (cleanup : Cleanup) (pc : CleanupPC)
    (err : GoError) : Daemon :=
  { d with
    cleanups := d.cleanups.set index
      { cleanup with pc := pc, result := cleanup.result.join err } }

def finishStop (err : GoError) : Daemon :=
  if d.state = .stopped then
    d
  else
    { d with stopErr := err, state := .stopped, stopDone := d.stopDone + 1 }

/-- `listener.Close`, when there is a listener. -/
def closeListener (listener : Option Nat) : Daemon :=
  { d with
    listeners := match listener with
      | none => d.listeners
      | some listener => d.listeners.set listener true }

def cleanupStep (cleanup : Cleanup) (err : GoError) :
    Option Daemon :=
  match cleanup.pc with
  | .setNotServing =>
    some ({ d with healthy := d.healthy && !cleanup.serving }.cleanupGoes index
      cleanup .closeExecutions [])
  | .closeExecutions =>
    some ({ d with executionsClosed := true }.cleanupGoes index cleanup .clearWorkspaces err)
  | .clearWorkspaces => some (d.cleanupGoes index cleanup .awaitWorkspaces [])
  | .awaitWorkspaces =>
    some ({ d with workspacesClosed := true }.cleanupGoes index cleanup .stopGrpc err)
  | .stopGrpc =>
    if cleanup.serving then
      some ({ d with drains := true }.cleanupGoes index cleanup .drainGrpc [])
    else
      some (d.cleanupGoes index cleanup .closeListener [])
  | .drainGrpc =>
    -- the context of the cleanup is never done
    some (d.cleanupGoes index cleanup .closeListener [])
  | .closeListener =>
    some ((d.closeListener cleanup.listener).cleanupGoes index cleanup .closeRuntime
      (if cleanup.listener = none then [] else err))
  | .closeRuntime =>
    some ({ d with runtimeClosed := d.runtimeClosed + 1 }.cleanupGoes index cleanup .finishStop err)
  | .finishStop =>
    some ((d.finishStop cleanup.result).cleanupGoes index cleanup .finished [])
  | .finished => none

end

def step : Action → Option Daemon
  | .start => some { d with starts := d.starts ++ [.checkContext] }
  | .startStep index reply =>
    match d.starts[index]? with
    | none => none
    | some pc => d.startStep index reply pc
  | .stop => some { d with stops := d.stops ++ [.begin] }
  | .stopStep index reply =>
    match d.stops[index]? with
    | none => none
    | some pc => d.stopStep index reply pc
  | .cleanup index reply =>
    match d.cleanups[index]? with
    | none => none
    | some cleanup => d.cleanupStep index cleanup reply.err
  | .requestShutdown => some { d with shutdown := true }

end

/-! ## What a step can do -/

/-- Steps of `Start` that touch nothing of the daemon. -/
inductive StartMove (d : Daemon) : StartPC → StartPC → Prop
  | checked : StartMove d .checkContext .begin
  | unwanted : StartMove d .checkContext (.returned [])
  | again {err : GoError} (begun : d.state ≠ .new) : StartMove d .begin (.returned err)
  | unbound {err : List Cause} (failed : err ≠ []) : StartMove d .listen (.listenFailed err)
  | stopped {err : GoError}
      (done : d.stopDone ≠ 0) : StartMove d (.awaitStop err) (.returned err)
  | late {listener : Nat} (stopping : d.state = .stopping) :
      StartMove d (.bound listener) (.cleanUpBound listener)
  | served {err : GoError} : StartMove d .serving (.returned err)

/-- Steps of `Start` that do. -/
inductive StartEffect (d : Daemon) : StartPC → Daemon → StartPC → Prop
  | move {pc : StartPC} {pc'} (moves : StartMove d pc pc') : StartEffect d pc d pc'
  | begin (fresh : d.state = .new) :
      StartEffect d .begin { d with state := .starting } .listen
  | listen :
      StartEffect d .listen { d with listeners := d.listeners ++ [false] }
        (.bound d.listeners.length)
  | fail {err : GoError} :
      StartEffect d (.listenFailed err) { d with state := .stopping }
        (.cleanUpFailed err)
  | run {listener : Nat} (wanted : d.state ≠ .stopping) :
      StartEffect d (.bound listener)
        { d with listener := some listener, state := .running, healthy := true } .ready
  | serve : StartEffect d .ready { d with serves := true } .serving
  | cleanUp {pc pc' : StartPC} {listener : Option Nat}
      (cleans : (∃ err, pc = .cleanUpFailed err ∧ listener = none ∧ pc' = .awaitStop err) ∨
        ∃ bound, pc = .cleanUpBound bound ∧ listener = some bound ∧ pc' = .returned []) :
      StartEffect d pc (d.startCleanup listener false) pc'

/-- Steps of `Stop` that touch nothing of the daemon. -/
inductive StopMove (d : Daemon) (reply : Reply) : StopPC → StopPC → Prop
  | wait (stopping : d.state = .stopping) : StopMove d reply .begin .waiting
  | read (stopped : d.state = .stopped) :
      StopMove d reply .begin (.returned d.stopErr)
  | cancel (cancelled : reply.ctxErr ≠ []) :
      StopMove d reply .waiting (.cancelled reply.ctxErr)
  | wake (done : d.stopDone ≠ 0) : StopMove d reply .waiting .stopResult
  | result : StopMove d reply .stopResult (.returned d.stopErr)

/-- Steps of `Stop` that do. -/
inductive StopEffect (d : Daemon) (reply : Reply) : StopPC → Daemon → StopPC → Prop
  | move {pc : StopPC} {pc'}
      (moves : StopMove d reply pc pc') : StopEffect d reply pc d pc'
  | fresh (unstarted : d.state = .new) :
      StopEffect d reply .begin { d with state := .stopping } (.cleanUp none false)
  | interrupt (starting : d.state = .starting) :
      StopEffect d reply .begin { d with state := .stopping } .waiting
  | stop (running : d.state = .running) :
      StopEffect d reply .begin { d with state := .stopping }
        (.cleanUp d.listener true)
  | cleanUp {serving} {listener : Option Nat} :
      StopEffect d reply (.cleanUp listener serving)
        (d.startCleanup listener serving) .waiting

/-- Steps of a cleanup: the services it calls, and where it goes. -/
inductive CleanupEffect (d : Daemon) (cleanup : Cleanup) : Daemon → CleanupPC → Prop
  | setNotServing (at_ : cleanup.pc = .setNotServing) {healthy : Bool} :
      CleanupEffect d cleanup { d with healthy := healthy } .closeExecutions
  | closeExecutions (at_ : cleanup.pc = .closeExecutions) :
      CleanupEffect d cleanup { d with executionsClosed := true } .clearWorkspaces
  | clearWorkspaces (at_ : cleanup.pc = .clearWorkspaces) :
      CleanupEffect d cleanup d .awaitWorkspaces
  | awaitWorkspaces (at_ : cleanup.pc = .awaitWorkspaces) :
      CleanupEffect d cleanup { d with workspacesClosed := true } .stopGrpc
  | stopGrpc (at_ : cleanup.pc = .stopGrpc) (serving : cleanup.serving = true) :
      CleanupEffect d cleanup { d with drains := true } .drainGrpc
  | skipGrpc (at_ : cleanup.pc = .stopGrpc) (serving : cleanup.serving = false) :
      CleanupEffect d cleanup d .closeListener
  | drainGrpc (at_ : cleanup.pc = .drainGrpc) : CleanupEffect d cleanup d .closeListener
  | closeListener (at_ : cleanup.pc = .closeListener) :
      CleanupEffect d cleanup (d.closeListener cleanup.listener) .closeRuntime
  | closeRuntime (at_ : cleanup.pc = .closeRuntime) :
      CleanupEffect d cleanup
        { d with runtimeClosed := d.runtimeClosed + 1 } .finishStop
  | finishStop (at_ : cleanup.pc = .finishStop) :
      CleanupEffect d cleanup (d.finishStop cleanup.result) .finished

inductive Effect (d : Daemon) : Action → Daemon → Prop
  | callStart : Effect d .start { d with starts := d.starts ++ [.checkContext] }
  | start {index : Nat} {pc : StartPC} {after pc'} {reply : Reply}
      (found : d.starts[index]? = some pc) (effect : StartEffect d pc after pc') :
      Effect d (.startStep index reply) (after.startGoes index pc')
  | callStop : Effect d .stop { d with stops := d.stops ++ [.begin] }
  | stop {index : Nat} {pc : StopPC} {reply : Reply} {after pc'}
      (found : d.stops[index]? = some pc)
      (effect : StopEffect d reply pc after pc') :
      Effect d (.stopStep index reply) (after.stopGoes index pc')
  | cleanup {index : Nat} {cleanup after pc'} {err : List Cause} {reply : Reply}
      (found : d.cleanups[index]? = some cleanup)
      (effect : CleanupEffect d cleanup after pc') (last : pc' = .finished → err = []) :
      Effect d (.cleanup index reply) (after.cleanupGoes index cleanup pc' err)
  | requestShutdown : Effect d .requestShutdown { d with shutdown := true }

variable {next d : Daemon} {index : Nat} {reply : Reply} {pc : StopPC} {err : GoError}
  {action : Action}

theorem Effect.of_startStep {pc : StartPC} (found : d.starts[index]? = some pc)
    (taken : d.startStep index reply pc = some next) :
    Effect d (.startStep index reply) next := by
  have touches : ∀ {pc' : StartPC} {after : Daemon}, StartEffect d pc after pc' →
      Effect d (.startStep index reply) (after.startGoes index pc') :=
    fun effect => .start found effect
  have moves : ∀ {pc' : StartPC}, StartMove d pc pc' →
      Effect d (.startStep index reply) (d.startGoes index pc') :=
    fun move => touches (.move move)
  revert taken
  fun_cases startStep d index reply pc
  all_goals intro taken; cases taken
  · split
    · exact moves .checked
    · exact moves .unwanted
  next begun => exact moves (.again begun)
  next fresh => exact touches (.begin (by simpa using fresh))
  · exact touches .listen
  next failed => exact moves (.unbound failed)
  next err => exact touches (.fail)
  next err => exact touches (.cleanUp (Or.inl ⟨err, rfl, rfl, rfl⟩))
  next err done => exact moves (.stopped done)
  next listener stopping => exact moves (.late stopping)
  next listener wanted => exact touches (.run wanted)
  next listener =>
    exact touches (.cleanUp (Or.inr ⟨listener, rfl, rfl, rfl⟩))
  · exact touches .serve
  · exact moves (.served)
  next err _ => exact moves (.served)
  · exact moves (.served)

theorem Effect.of_stopStep (found : d.stops[index]? = some pc)
    (taken : d.stopStep index reply pc = some next) :
    Effect d (.stopStep index reply) next := by
  have touches : ∀ {pc' : StopPC} {after : Daemon}, StopEffect d reply pc after pc' →
      Effect d (.stopStep index reply) (after.stopGoes index pc') :=
    fun effect => .stop found effect
  have moves : ∀ {pc' : StopPC}, StopMove d reply pc pc' →
      Effect d (.stopStep index reply) (d.stopGoes index pc') :=
    fun move => touches (.move move)
  revert taken
  fun_cases stopStep d index reply pc
  all_goals intro taken; cases taken
  next state => exact touches (.fresh state)
  next state => exact touches (.interrupt state)
  next state => exact touches (.stop state)
  next state => exact moves (.wait state)
  next state => exact moves (.read state)
  next listener serving => exact touches (.cleanUp)
  next cancelled => exact moves (.cancel cancelled)
  next done => exact moves (.wake done)
  · exact moves .result

theorem Effect.of_cleanupStep {cleanup : Cleanup} (found : d.cleanups[index]? = some cleanup)
    (taken : d.cleanupStep index cleanup err = some next) :
    Effect d (.cleanup index reply) next := by
  have goes : ∀ {after : Daemon} {pc' : CleanupPC} {err : GoError},
      CleanupEffect d cleanup after pc' → (pc' = .finished → err = []) →
        Effect d (.cleanup index reply) (after.cleanupGoes index cleanup pc' err) :=
    fun effect last => .cleanup found effect last
  revert taken
  fun_cases cleanupStep d index cleanup err
  all_goals intro taken; cases taken
  next at_ => exact goes (.setNotServing at_) nofun
  next at_ => exact goes (.closeExecutions at_) nofun
  next at_ => exact goes (.clearWorkspaces at_) nofun
  next at_ => exact goes (.awaitWorkspaces at_) nofun
  next at_ serving => exact goes (.stopGrpc at_ serving) nofun
  next at_ serving => exact goes (.skipGrpc at_ (by simpa using serving)) nofun
  next at_ => exact goes (.drainGrpc at_) nofun
  next at_ => exact goes (.closeListener at_) nofun
  next at_ => exact goes (.closeRuntime at_) nofun
  next at_ => exact goes (.finishStop at_) fun _ => rfl

theorem Effect.of_step (taken : d.step action = some next) :
    Effect d action next := by
  revert taken
  fun_cases step d action
  all_goals intro taken
  · cases taken
    exact .callStart
  · cases taken
  next found => exact of_startStep found taken
  · cases taken
    exact .callStop
  · cases taken
  next found => exact of_stopStep found taken
  · cases taken
  next found => exact of_cleanupStep found taken
  · cases taken
    exact .requestShutdown

end Daemon

end Ferretd.Daemons

import Ferretd.Exec.ExecutionRegistry
import Ferretd.Exec.Session

/-!
# One executable session and everything below it

The machine holds a session, the runtime creations that its gate has admitted, its
Executions with their part of the registry, its debug runtimes with the callers of
their `Close`, and the owner of its close operation.  A step is one critical section
or the return of one foreign call.  The session exists from the moment the runtime
hands out its normal Plan; `entry` is empty until `commitCreate` publishes it.
-/

namespace Ferretd.Exec

open Library

/-! ## Foreign objects -/

/-- The Plans and debugger sessions that were handed out for a session, and how
often each was closed. -/
structure Objects where
  plans : Nat
  planCloses : Nat → Nat
  debuggers : Nat
  debuggerCloses : Nat → Nat

namespace Objects

def new : Objects :=
  ⟨1, fun _ => 0, 0, fun _ => 0⟩

def closePlan (objects : Objects) (plan : Nat) : Objects :=
  { objects with
    planCloses := Function.update objects.planCloses plan (objects.planCloses plan + 1) }

def closeDebugger (objects : Objects) (dbg : Nat) : Objects :=
  { objects with
    debuggerCloses := Function.update objects.debuggerCloses dbg
      (objects.debuggerCloses dbg + 1) }

end Objects

/-! ## Debug runtimes -/

/-- The control points of `DebugRuntime.Close`. -/
inductive DebugClosePC where
  | cancel
  | enterClose
  | returnClose
  | release (err : GoError)
  | returned (err : GoError)

/-- `DebugRuntime`; `released` is the `once` of its lease and `closers` are the
calls of `Close` in flight. -/
structure DebugRuntime where
  runtime : ExecutionRuntime
  released : Bool
  closers : List DebugClosePC

/-- The session with its debug runtimes and the objects handed out for it. -/
structure SessionCore where
  session : Session
  debugs : List DebugRuntime
  objects : Objects

/-- What a step of `DebugRuntime.Close` does outside the runtime: nothing, a call of
the debugger's `Close`, or the release of the lease. -/
inductive DebugEffect where
  | none
  | closeDebugger (dbg : Nat)
  | releaseLease

/-- One step of `DebugRuntime.Close`. -/
def debugCloseStep (debug : DebugRuntime) (answer : Answer) :
    DebugClosePC → Option (DebugRuntime × DebugClosePC × DebugEffect)
  | .cancel =>
    some ({ debug with runtime := debug.runtime.cancel }, .enterClose, .none)
  | .enterClose =>
    match debug.runtime.enterClose with
    | none => none
    | some (entered, some dbg) =>
      some ({ debug with runtime := entered }, .returnClose, .closeDebugger dbg)
    | some (entered, none) =>
      some ({ debug with runtime := entered }, .release entered.closeErr, .none)
  | .returnClose =>
    some ({ debug with runtime := debug.runtime.returnClose answer.err },
      .release answer.err, .none)
  | .release err =>
    if debug.released then
      some (debug, .returned err, .none)
    else
      some ({ debug with released := true }, .returned err, .releaseLease)
  | .returned _ => none

def SessionCore.applyDebugEffect (core : SessionCore) : DebugEffect → SessionCore
  | .none => core
  | .closeDebugger dbg =>
    { core with objects := core.objects.closeDebugger dbg }
  | .releaseLease => { core with session := core.session.releaseDebugRuntime }

/-! ## Runtime creation -/

/-- The control points of `CreateExecution` and `CreateDebugRuntime` after
`beginRuntimeCreate`; `finish` is the deferred `creation.finish()`. -/
inductive CreatePC where
  | addExecution
  | acquire
  | awaitCompile (channel : Option Nat)
  | compile
  | commitCompile (plan : Option Nat) (err : GoError)
  | closeCompiled (plan : Nat) (err : GoError) (closing : Bool)
  | newDebugSession (plan : Nat)
  | closeDebugger (plan dbg : Nat) (err : GoError)
  | release (plan : Nat) (err : GoError)
  | finish (err : GoError)

structure RuntimeCreation where
  input : RuntimeInput
  pc : CreatePC

/-- How `CreateDebugRuntime` reports a failed acquisition. -/
def acquisitionError (err : GoError) : GoError :=
  if err.isContext || err.is .execSessionClosed || err.is .workspaceClosed ||
      err.is .workspaceDocumentNotFound then
    err
  else
    GoError.join [.execCompilationFailed] err

/-- The return of `compileDebug`. -/
def SessionCore.compiled (core : SessionCore) (answer : Answer) :
    SessionCore × CreatePC :=
  match answer.object with
  | none =>
    if answer.err = [] then
      (core, .commitCompile none [.message "debug compilation returned no plan"])
    else
      (core, .commitCompile none answer.err)
  | some _ =>
    ({ core with objects := { core.objects with plans := core.objects.plans + 1 } },
      .commitCompile (some core.objects.plans) answer.err)

/-- The return of `NewDebugSession` on a leased debug Plan. -/
def SessionCore.debuggerReturned (core : SessionCore) (input : RuntimeInput)
    (answer : Answer) (plan : Nat) : SessionCore × CreatePC :=
  match answer.object with
  | none =>
    if answer.err = [] then
      (core, .release plan [.message "runtime returned no debug session"])
    else
      (core, .release plan answer.err)
  | some _ =>
    let dbg := core.objects.debuggers
    let handed :=
      { core with objects := { core.objects with debuggers := dbg + 1 } }
    if answer.err = [] then
      let runtime := newExecutionRuntime ⟨core.session.id, some plan⟩ input
        core.session.materialize
      ({ handed with
          debugs := core.debugs ++ [⟨{ runtime with session := some dbg }, false, []⟩] },
        .finish [])
    else
      (handed, .closeDebugger plan dbg answer.err)

/-- One step of `CreateDebugRuntime` between admission and `creation.finish()`. -/
def createStep (core : SessionCore) (input : RuntimeInput) (answer : Answer) :
    CreatePC → Option (SessionCore × CreatePC)
  | .acquire =>
    match core.session.acquireDebugRuntimeTarget with
    | (.rejected err, session) =>
      some ({ core with session := session }, .finish (acquisitionError err))
    | (.leased plan, session) =>
      some ({ core with session := session }, .newDebugSession plan)
    | (.await channel, session) =>
      some ({ core with session := session }, .awaitCompile channel)
    | (.compile, session) => some ({ core with session := session }, .compile)
  | .awaitCompile channel =>
    if answer.ctxErr ≠ [] then
      some (core, .finish answer.ctxErr)
    else if signalled core.session.debugCompileDone channel then
      some (core, .acquire)
    else
      none
  | .compile => some (core.compiled answer)
  | .commitCompile plan err =>
    let (closing, session) := core.session.commitCompile plan err
    let committed := { core with session := session }
    match plan with
    | some plan =>
      if err ≠ [] ∨ closing = true then
        some (committed, .closeCompiled plan err closing)
      else
        some (committed, .newDebugSession plan)
    | none =>
      some (committed, .finish (acquisitionError
        (if closing then GoError.join [.execSessionClosed] err else err)))
  | .closeCompiled plan err closing =>
    let joined := err.join answer.err
    some ({ core with objects := core.objects.closePlan plan },
      .finish (acquisitionError
        (if closing then GoError.join [.execSessionClosed] joined else joined)))
  | .newDebugSession plan => some (core.debuggerReturned input answer plan)
  | .closeDebugger plan dbg err =>
    some ({ core with objects := core.objects.closeDebugger dbg },
      .release plan (err.join answer.err))
  | .release _ err =>
    some ({ core with session := core.session.releaseDebugRuntime }, .finish err)
  | .addExecution | .finish _ => none

/-! ## The machine -/

/-- The control points of `finishSessionClose`. -/
inductive SessionClosePC where
  | waitForCreates
  | awaitCreates (captured : Option Nat)
  | beginChildren
  | awaitChildren (remaining : List Nat) (result : GoError)
  | finishChildren (result : GoError)
  | hooks (remaining : Nat) (result : GoError)
  | samplePlans (result : GoError)
  | awaitCompile (compileDone runtimeDone : Option Nat) (result : GoError)
  | awaitRuntimes (runtimeDone : Option Nat) (result : GoError)
  | takePlans (result : GoError)
  | closePlan (plan debugPlan : Option Nat) (result : GoError)
  | closeDebugPlan (debugPlan : Option Nat) (result : GoError)
  | finishClose (result : GoError)
  | removeEntry
deriving DecidableEq

/-- `sessionEntry`; `listed` says that the registry's `entries` still holds it. -/
structure SessionEntry where
  state : RegistryState
  listed : Bool
deriving DecidableEq

structure SessionMachine where
  core : SessionCore
  entry : Option SessionEntry
  creators : List RuntimeCreation
  executions : List ExecutionEntry
  registry : ExecutionRegistry
  worker : Option SessionClosePC
  hooks : Nat

inductive SessionAction where
  | publish
  | discard
  | beginCreate (debug : Bool) (input : RuntimeInput) (registryClosed : Bool)
  | create (index : Nat) (answer : Answer)
  | execution (id : Nat) (action : ExecutionAction)
  | beginExecutionClose (id : Nat)
  | settleExecution (id : Nat) (answer : Answer)
  | removeExecution (id : Nat)
  | beginDebugClose (debug : Nat)
  | debugClose (debug index : Nat) (answer : Answer)
  | beginClose
  | close (answer : Answer) (order : List Nat)

/-- The operations that callers and the runner apply to an Execution they hold;
closing goes through the registry. -/
def ExecutionAction.direct : ExecutionAction → Bool
  | .beginClose | .close _ => false
  | _ => true

namespace SessionMachine

/-- The session that is built around a Plan which `Compile` has returned. -/
def init (id ws hooks : Nat) (materialize : GoError → RuntimeFailure) :
    SessionMachine where
  core := ⟨.newSession id ws 0 materialize, [], .new⟩
  entry := none
  creators := []
  executions := []
  registry := .new
  worker := none
  hooks := hooks

variable (m : SessionMachine)

def active : Bool :=
  m.entry = some ⟨.active, true⟩

/-- `executionRegistry.active`. -/
def activeExecution (id : Nat) : Option ExecutionMachine :=
  if id ∈ m.registry.entries then
    match m.executions[id]? with
    | some ⟨execution, .active, _⟩ => some execution
    | _ => none
  else
    none

/-- `Close` of the Plan of a session that was not published. -/
def discard : Option SessionMachine :=
  match m.entry, m.core.session.closeUnpublished with
  | none, (some plan, session) =>
    some { m with
      core := { m.core with
        session := session
        objects := m.core.objects.closePlan plan } }
  | _, _ => none

/-- `sessionRegistry.beginRuntimeCreate`. -/
def beginCreate (debug : Bool) (input : RuntimeInput)
    (registryClosed : Bool) : Option SessionMachine :=
  if registryClosed = true ∨ m.active = false then
    some m
  else if m.core.session.children.beginCreate.1 then
    some { m with
      core := { m.core with
        session := { m.core.session with
          children := m.core.session.children.beginCreate.2 } }
      creators := m.creators ++ [⟨input, if debug then .acquire else .addExecution⟩] }
  else
    -- panic("execution: active Session rejected runtime creation")
    none

/-- `newExecution` and `executionRegistry.add` for an admitted creation. -/
def addExecution (input : RuntimeInput) (index : Nat) :
    Option SessionMachine :=
  let id := m.executions.length
  match m.registry.add id with
  | .error _ => none
  | .ok registry =>
    some { m with
      creators := m.creators.set index ⟨input, .finish []⟩
      executions := m.executions ++
        [⟨.init id m.core.session.runtimeTarget input m.core.session.materialize, .active, false⟩]
      registry := registry }

/-- `runtimeCreation.finish`. -/
def finishCreate (index : Nat) : Option SessionMachine :=
  match m.core.session.children.endCreate with
  | .error _ => none
  | .ok (_, children) =>
    some { m with
      core := { m.core with
        session := { m.core.session with children := children } }
      creators := m.creators.eraseIdx index }

def create (index : Nat) (answer : Answer) :
    Option SessionMachine :=
  match m.creators[index]? with
  | none => none
  | some ⟨input, .addExecution⟩ => m.addExecution input index
  | some ⟨_, .finish _⟩ => m.finishCreate index
  | some ⟨input, pc⟩ =>
    (createStep m.core input answer pc).map fun moved =>
      { m with
        core := moved.1
        creators := m.creators.set index ⟨input, moved.2⟩ }

/-- `Manager.CloseExecution` up to the start of its goroutine. -/
def beginExecutionClose (id : Nat) :
    Option SessionMachine :=
  if id ∈ m.registry.entries then
    match m.executions[id]? with
    | none => none
    | some entry =>
      match entry.beginCloseLocked with
      | .error _ => none
      | .ok (_, begun) =>
        some { m with executions := m.executions.set id begun }
  else
    some m

/-- One step of `settleClose` and `completeClose` in `finishExecutionClose`. -/
def settleExecution (id : Nat) (answer : Answer) :
    Option SessionMachine :=
  match m.executions[id]? with
  | none => none
  | some entry =>
    (entry.machine.step (.close answer)).map fun settled =>
      { m with
        executions := m.executions.set id { entry with machine := settled } }

/-- The last section of `finishExecutionClose`. -/
def removeExecution (id : Nat) :
    Option SessionMachine :=
  match m.executions[id]? with
  | none => none
  | some entry =>
    if entry.machine.execution.close.finished ∧ entry.removed = false then
      some { m with
        executions := m.executions.set id { entry with removed := true }
        registry := m.registry.finishClose id (!m.core.session.children.accepting) }
    else
      none

def debugClose (debug index : Nat) (answer : Answer) :
    Option SessionMachine :=
  match m.core.debugs[debug]? with
  | none => none
  | some runtime =>
    match runtime.closers[index]? with
    | none => none
    | some pc =>
      (debugCloseStep runtime answer pc).map fun (closed, pc', effect) =>
        { m with
          core := { m.core with
            debugs := m.core.debugs.set debug
              { closed with closers := runtime.closers.set index pc' }
            }.applyDebugEffect effect }

/-- `sessionRegistry.beginClose`, and the start of `finishSessionClose` by its owner. -/
def beginClose : Option SessionMachine :=
  match m.entry with
  | none => none
  | some entry =>
    if entry.state = .closing then
      some m
    else if m.core.session.children.beginClose.1 then
      some { m with
        core := { m.core with
          session := { m.core.session with
            children := m.core.session.children.beginClose.2 } }
        entry := some { entry with state := .closing }
        worker := some .waitForCreates }
    else
      -- panic("execution: active Session close has already started")
      none

def closeTaken (plan : Option Nat) : SessionMachine :=
  match plan with
  | none => m
  | some plan =>
    { m with
      core := { m.core with objects := m.core.objects.closePlan plan } }

def joinTaken (result : GoError) (answer : Answer) (plan : Option Nat) : GoError :=
  match plan with
  | none => result
  | some _ => result.join answer.err

/-- One step of `finishSessionClose`.  `order` is the order in which the children are
visited, which the iteration over a map leaves open. -/
def closeStep (answer : Answer) (order : List Nat) :
    SessionClosePC → Option SessionMachine
  | .waitForCreates =>
    match m.core.session.children.waitForCreates with
    | .error _ => none
    | .ok captured => some { m with worker := some (.awaitCreates captured) }
  | .awaitCreates captured =>
    if m.core.session.children.createsSignalled captured then
      some { m with worker := some .beginChildren }
    else
      none
  | .beginChildren =>
    if order.Perm m.registry.children then
      match ExecutionRegistry.beginCloseAll m.executions order with
      | .error _ => none
      | .ok executions =>
        some { m with
          executions := executions
          registry := m.registry.beginSessionClose
          worker := some (.awaitChildren order []) }
    else
      none
  | .awaitChildren [] result =>
    some { m with worker := some (.finishChildren result) }
  | .awaitChildren (id :: rest) result =>
    match m.executions[id]? with
    | none => none
    | some entry =>
      match entry.machine.execution.close.wait [] with
      | .ok (some err) =>
        some { m with worker := some (.awaitChildren rest (result.join err)) }
      | _ => none
  | .finishChildren result =>
    some { m with
      registry := m.registry.finishSessionClose
      worker := some (.hooks m.hooks result) }
  | .hooks 0 result => some { m with worker := some (.samplePlans result) }
  | .hooks (remaining + 1) result =>
    some { m with worker := some (.hooks remaining (result.join answer.err)) }
  | .samplePlans result =>
    some { m with
      worker := some (.awaitCompile m.core.session.debugCompileDone
        m.core.session.debugRuntimeDone result) }
  | .awaitCompile compileDone runtimeDone result =>
    if signalled m.core.session.debugCompileDone compileDone then
      some { m with worker := some (.awaitRuntimes runtimeDone result) }
    else
      none
  | .awaitRuntimes runtimeDone result =>
    if signalled m.core.session.debugRuntimeDone runtimeDone then
      some { m with worker := some (.takePlans result) }
    else
      none
  | .takePlans result =>
    let (plan, debugPlan, session) := m.core.session.takePlans
    some { m with
      core := { m.core with session := session }
      worker := some (.closePlan plan debugPlan result) }
  | .closePlan plan debugPlan result =>
    some { m.closeTaken plan with
      worker := some (.closeDebugPlan debugPlan (joinTaken result answer plan)) }
  | .closeDebugPlan debugPlan result =>
    some { m.closeTaken debugPlan with
      worker := some (.finishClose (joinTaken result answer debugPlan)) }
  | .finishClose result =>
    match m.core.session.children.finishClose result with
    | .error _ => none
    | .ok children =>
      some { m with
        core := { m.core with
          session := { m.core.session with children := children } }
        worker := some .removeEntry }
  | .removeEntry =>
    some { m with
      entry := m.entry.map fun entry => { entry with listed := false }
      worker := none }

def step : SessionAction → Option SessionMachine
  | .publish =>
    match m.entry, m.core.session.plan with
    | none, some _ => some { m with entry := some ⟨.active, true⟩ }
    | _, _ => none
  | .discard => m.discard
  | .beginCreate debug input registryClosed =>
    m.beginCreate debug input registryClosed
  | .create index answer => m.create index answer
  | .execution id action =>
    if action.direct then
      match m.executions[id]? with
      | none => none
      | some entry =>
        (entry.machine.step action).map fun moved =>
          { m with
            executions := m.executions.set id { entry with machine := moved } }
    else
      none
  | .beginExecutionClose id => m.beginExecutionClose id
  | .settleExecution id answer => m.settleExecution id answer
  | .removeExecution id => m.removeExecution id
  | .beginDebugClose debug =>
    match m.core.debugs[debug]? with
    | none => none
    | some runtime =>
      some { m with
        core := { m.core with
          debugs := m.core.debugs.set debug
            { runtime with closers := runtime.closers ++ [.cancel] } } }
  | .debugClose debug index answer => m.debugClose debug index answer
  | .beginClose => m.beginClose
  | .close answer order =>
    match m.worker with
    | none => none
    | some pc => m.closeStep answer order pc

end SessionMachine

end Ferretd.Exec

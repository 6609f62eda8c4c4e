import Ferretd.Exec.SessionTeardown

/-!
# The execution manager

`Manager` with its session registry and the workspace groups.  The machine holds all
groups and sessions ever made, the calls of `CreateSession` that a group has admitted
and the owners of the groups' close operations.  `sessionRegistry.mu` is held across
the group's sections, so every section of the registry is one step.  A session is
known by its position, and belongs to the list from the moment `Compile` returns its
Plan; the entries of the registry are the sessions that are published and listed.
-/

namespace Ferretd.Exec

open Library

/-! ## Workspace groups -/

/-- How `prepareSession` reports an error after it has closed the Plan. -/
inductive CreateFailure where
  | plain
  | compilation
  | parameters
deriving DecidableEq

def CreateFailure.report (err : GoError) : CreateFailure → GoError
  | .plain => err
  | .compilation =>
    if err.isContext || err.is .workspaceClosed || err.is .workspaceDocumentNotFound then
      err
    else
      GoError.join [.execCompilationFailed] err
  | .parameters =>
    if err.isContext then err else GoError.join [.execCompilationFailed] err

/-- The control points of `CreateSession` after `beginCreate`; `discard` closes the
Plan of a session that is not published, and `finish` is the deferred
`finishCreate`. -/
inductive SessionCreatePC where
  | get
  | refresh
  | compile
  | checkContext (sid : Nat)
  | params (sid : Nat)
  | newID (sid : Nat)
  | commit (sid : Nat)
  | discard (sid : Nat) (err : GoError) (failure : CreateFailure)
  | finish (err : GoError)
deriving DecidableEq

/-- The control points of `finishWorkspaceClose`. -/
inductive WorkspaceClosePC where
  | waitForCreates
  | awaitCreates (captured : Option Nat)
  | retainedSessions
  | closeSessions (remaining : List Nat) (result : GoError)
  | awaitSession (sid : Nat) (remaining : List Nat) (result : GoError)
  | finishClose (result : GoError)

/-- `workspaceGroup` of one workspace, with the creations it has admitted and the
owner of its close operation. -/
structure WorkspaceGroup where
  workspace : Nat
  gate : Gate
  sessions : List Nat
  creations : List SessionCreatePC
  worker : Option WorkspaceClosePC

namespace WorkspaceGroup

/-- `newWorkspaceGroup`. -/
def new (ws : Nat) : WorkspaceGroup :=
  ⟨ws, .new, [], [], none⟩

variable (group : WorkspaceGroup)

/-- `beginCreate`, and the call of `CreateSession` that it admits. -/
def beginCreate : WorkspaceGroup :=
  if group.gate.beginCreate.1 then
    { group with
      gate := group.gate.beginCreate.2
      creations := group.creations ++ [.get] }
  else
    group

/-- `finishCreate`; the Boolean is `discard`. -/
def finishCreate (index : Nat) :
    Except Panic (Bool × WorkspaceGroup) :=
  match group.gate.endCreate with
  | .error panic => .error panic
  | .ok (idle, gate) =>
    .ok (idle && gate.accepting && group.sessions.isEmpty,
      { group with gate := gate, creations := group.creations.eraseIdx index })

/-- `add`, once the gate is known to accept. -/
def add (sid : Nat) : WorkspaceGroup :=
  { group with sessions := group.sessions ++ [sid] }

/-- `removeCompleted`; the Boolean is `discard`. -/
def removeCompleted (sid : Nat) :
    Bool × WorkspaceGroup :=
  let sessions :=
    if group.gate.accepting then group.sessions.erase sid else group.sessions
  (group.gate.accepting && group.gate.idle && sessions.isEmpty,
    { group with sessions := sessions })

/-- `beginClose`, and the goroutine that its owner starts. -/
def beginClose : WorkspaceGroup :=
  if group.gate.beginClose.1 then
    { group with gate := group.gate.beginClose.2, worker := some .waitForCreates }
  else
    group

def goOn (index : Nat) (pc : SessionCreatePC) :
    WorkspaceGroup :=
  { group with creations := group.creations.set index pc }

end WorkspaceGroup

/-! ## The manager -/

/-- A session and the group that its creation was admitted to. -/
structure Member where
  group : Nat
  machine : SessionMachine

/-- `groups` maps a workspace to the position of its group; `materialize` gives the
error rendering of each session. -/
structure Manager where
  closed : Bool
  groups : Nat → Option Nat
  pool : List WorkspaceGroup
  sessions : List Member
  hooks : Nat
  materialize : Nat → GoError → RuntimeFailure

inductive ManagerAction where
  | createSession (ws : Nat)
  | creation (group index : Nat) (answer : Answer)
  | createRuntime (sid : Nat) (debug : Bool) (input : RuntimeInput)
  | session (sid : Nat) (action : SessionAction)
  | closeWorkspace (ws : Nat)
  | worker (group : Nat) (order : List Nat)
  | close

/-- The actions on a session that do not go through the session registry. -/
def SessionAction.direct : SessionAction → Bool
  | .publish | .discard | .beginCreate _ _ _ => false
  | _ => true

namespace Manager

def new (hooks : Nat) (materialize : Nat → GoError → RuntimeFailure) : Manager where
  closed := false
  groups := fun _ => none
  pool := []
  sessions := []
  hooks := hooks
  materialize := materialize

variable (mgr : Manager)

def setGroup (group : Nat) (next : WorkspaceGroup) : Manager :=
  { mgr with pool := mgr.pool.set group next }

def setSession (sid : Nat) (next : Member) : Manager :=
  { mgr with sessions := mgr.sessions.set sid next }

/-- `delete(r.groups, id)` unless another group has taken the place. -/
def forget (ws group : Nat) : Manager :=
  if mgr.groups ws = some group then
    { mgr with groups := Function.update mgr.groups ws none }
  else
    mgr

/-- The group of a workspace, which is made when there is none. -/
def groupOf (ws : Nat) : Manager × Nat :=
  match mgr.groups ws with
  | some group => (mgr, group)
  | none =>
    ({ mgr with
        groups := Function.update mgr.groups ws (some mgr.pool.length)
        pool := mgr.pool ++ [.new ws] },
      mgr.pool.length)

def beginCreate (ws : Nat) : Option Manager :=
  if mgr.closed then
    some mgr
  else
    let (located, group) := mgr.groupOf ws
    (located.pool[group]?).map fun found => located.setGroup group found.beginCreate

/-- `sessionRegistry.beginWorkspaceClose` with the start of its owner. -/
def beginWorkspaceClose (ws : Nat) : Option Manager :=
  let (located, group) := mgr.groupOf ws
  (located.pool[group]?).map fun found => located.setGroup group found.beginClose

/-- The error of `sessionRegistry.beginRuntimeCreate`, which admits a creation when
there is none. -/
def runtimeCreateError (sid : Nat) : GoError :=
  if mgr.closed then
    [.execClosed]
  else
    match mgr.sessions[sid]? with
    | none => [.execSessionNotFound]
    | some member => if member.machine.active then [] else [.execSessionNotFound]

/-- `sessionRegistry.beginShutdown` with the start of the owners. -/
def beginShutdown : Manager :=
  { mgr with
    closed := true
    pool := mgr.pool.mapIdx fun index group =>
      if mgr.groups group.workspace = some index then group.beginClose else group }

def stepSession (sid : Nat) (action : SessionAction) :
    Option Manager :=
  match mgr.sessions[sid]? with
  | none => none
  | some member =>
    (member.machine.step action).map fun next =>
      mgr.setSession sid { member with machine := next }

/-- The part of `sessionRegistry.finishClose` that concerns the groups. -/
def removeCompleted (sid ws : Nat) : Manager :=
  match mgr.groups ws with
  | none => mgr
  | some group =>
    match mgr.pool[group]? with
    | none => mgr
    | some found =>
      let (discard, removed) := found.removeCompleted sid
      let updated := mgr.setGroup group removed
      if discard then updated.forget ws group else updated

/-- The session that `CreateSession` builds around the Plan it was handed. -/
def compiled (group : Nat) (found : WorkspaceGroup) : Manager :=
  { mgr with
    sessions := mgr.sessions ++
      [⟨group, .init mgr.sessions.length found.workspace mgr.hooks
        (mgr.materialize mgr.sessions.length)⟩] }

/-- `sessionRegistry.commitCreate`; a refusal closes the Plan. -/
def commitCreate (group index : Nat) (found : WorkspaceGroup)
    (answer : Answer) (sid : Nat) : Option Manager :=
  if mgr.closed = true ∨ mgr.groups found.workspace ≠ some group ∨
      found.gate.accepting = false then
    some (mgr.setGroup group (found.goOn index (.discard sid [.workspaceClosed] .plain)))
  else if answer.ctxErr ≠ [] then
    some (mgr.setGroup group (found.goOn index (.discard sid answer.ctxErr .plain)))
  else
    (mgr.stepSession sid .publish).map fun published =>
      published.setGroup group ((found.add sid).goOn index (.finish []))

/-- One step of `CreateSession` after `beginCreate`. -/
def createStep (group index : Nat) (found : WorkspaceGroup)
    (answer : Answer) : SessionCreatePC → Option Manager
  | .get =>
    some (mgr.setGroup group
      (found.goOn index (if answer.err = [] then .refresh else .finish answer.err)))
  | .refresh =>
    -- `RefreshDocument`, and the test that the document is loaded.
    some (mgr.setGroup group (found.goOn index (if answer.err ≠ [] then
        .finish answer.err
      else if answer.object = none then
        .finish (GoError.join [.execCompilationFailed] [.workspaceDocumentUnavailable])
      else
        .compile)))
  | .compile =>
    match answer.object with
    | none =>
      some (mgr.setGroup group (found.goOn index (.finish (if answer.err = [] then
          GoError.join [.execCompilationFailed] [.message "runtime returned no plan"]
        else
          CreateFailure.compilation.report answer.err))))
    | some _ =>
      some ((mgr.compiled group found).setGroup group (found.goOn index (if answer.err = [] then
          .checkContext mgr.sessions.length
        else
          .discard mgr.sessions.length answer.err .compilation)))
  | .checkContext sid =>
    some (mgr.setGroup group (found.goOn index (if answer.ctxErr = [] then
        .params sid
      else
        .discard sid answer.ctxErr .plain)))
  | .params sid =>
    some (mgr.setGroup group (found.goOn index (if answer.err = [] then
        .newID sid
      else
        .discard sid answer.err .parameters)))
  | .newID sid =>
    some (mgr.setGroup group (found.goOn index (if answer.err = [] then
        .commit sid
      else
        .discard sid answer.err .plain)))
  | .commit sid => mgr.commitCreate group index found answer sid
  | .discard sid err failure =>
    (mgr.stepSession sid .discard).map fun closed =>
      closed.setGroup group (found.goOn index (.finish (failure.report (err.join answer.err))))
  | .finish _ =>
    match found.finishCreate index with
    | .error _ => none
    | .ok (discard, finished) =>
      let updated := mgr.setGroup group finished
      some (if discard then updated.forget found.workspace group else updated)

/-- One step of `finishWorkspaceClose`.  `order` is the order in which the sessions
are visited, which the iteration over a map leaves open. -/
def closeStep (group : Nat) (found : WorkspaceGroup)
    (order : List Nat) : WorkspaceClosePC → Option Manager
  | .waitForCreates =>
    match found.gate.waitForCreates with
    | .error _ => none
    | .ok captured =>
      some (mgr.setGroup group { found with worker := some (.awaitCreates captured) })
  | .awaitCreates captured =>
    if found.gate.createsSignalled captured then
      some (mgr.setGroup group { found with worker := some .retainedSessions })
    else
      none
  | .retainedSessions =>
    if order.Perm found.sessions then
      some (mgr.setGroup group { found with worker := some (.closeSessions order []) })
    else
      none
  | .closeSessions [] result =>
    some (mgr.setGroup group { found with worker := some (.finishClose result) })
  | .closeSessions (sid :: rest) result =>
    -- `closeSession` with the retained entry
    (mgr.stepSession sid .beginClose).map fun begun =>
      begun.setGroup group { found with worker := some (.awaitSession sid rest result) }
  | .awaitSession sid rest result =>
    match mgr.sessions[sid]? with
    | none => none
    | some member =>
      match member.machine.core.session.children.waitClose [] with
      | .ok (some err) =>
        some (mgr.setGroup group
          { found with worker := some (.closeSessions rest (result.join err)) })
      | _ => none
  | .finishClose result =>
    match found.gate.finishClose result with
    | .error _ => none
    | .ok gate =>
      some ((mgr.setGroup group
        { found with gate := gate, worker := none }).forget found.workspace group)

def step : ManagerAction → Option Manager
  | .createSession ws => mgr.beginCreate ws
  | .creation group index answer =>
    match mgr.pool[group]? with
    | none => none
    | some found =>
      match found.creations[index]? with
      | none => none
      | some pc => mgr.createStep group index found answer pc
  | .createRuntime sid debug input =>
    mgr.stepSession sid (.beginCreate debug input mgr.closed)
  | .session sid action =>
    if action.direct then
      match mgr.sessions[sid]? with
      | none => none
      | some member =>
        (mgr.stepSession sid action).map fun next =>
          -- the owner's last step is `sessionRegistry.finishClose`
          match action, member.machine.worker with
          | .close _ _, some .removeEntry =>
            next.removeCompleted sid member.machine.core.session.workspace
          | _, _ => next
    else
      none
  | .closeWorkspace ws => mgr.beginWorkspaceClose ws
  | .worker group order =>
    match mgr.pool[group]? with
    | none => none
    | some found =>
      match found.worker with
      | none => none
      | some pc => mgr.closeStep group found order pc
  | .close => some mgr.beginShutdown

end Manager

end Ferretd.Exec

import Ferretd.Debug.SessionMachine

/-!
# The debug manager

`debug.Manager` with the debug sessions it has published, the groups of its parents,
the calls of `CreateSession` and `CloseSession` that are under way and the goroutines
that close groups.  Every critical section of `Manager.mu` is one step.  A session is
known by its position; the maps `sessions` and `closing` are the members marked
`active` and `closing`.
-/

namespace Ferretd.Debug

open Library

/-- The control points of `finishExecutionSessionClose`; the three parts of the call
of `CloseSession` are `detachSession`, `beginClose` and `awaitClose`. -/
inductive GroupClosePC where
  | waitForCreates
  | awaitCreates (captured : Option Nat)
  | snapshot
  | detachSession (remaining : List Nat) (result : GoError)
  | beginClose (s : Nat) (remaining : List Nat) (result : GoError)
  | awaitClose (s : Nat) (remaining : List Nat) (result : GoError)
  | finishClose (result : GoError)
  | delete

/-- `sessionGroup` of one parent, with the owner of its close operation. -/
structure SessionGroup where
  parent : Nat
  gate : Gate
  sessions : List Nat
  worker : Option GroupClosePC

/-- The control points of `CreateSession` after `beginCreate`; `finish` is the
deferred `finishCreate`. -/
inductive CreatePC where
  | createRuntime
  | commit (runtime : RuntimeView)
  | closeRuntime (managerClosed : Bool)
  | finish (err : GoError)

structure Creation where
  parent : Nat
  pc : CreatePC

/-- A published debug session and its group.  `removing` while its close result is
published and the last section of `finishSessionClose` has not run. -/
structure Member where
  group : Nat
  machine : SessionMachine
  active : Bool
  closing : Bool
  removing : Bool

/-- `groups` maps a parent to the position of its group; `closers` are the calls of
`CloseSession` that have detached a session and not yet begun its close. -/
structure Manager where
  closed : Bool
  groups : Nat → Option Nat
  pool : List SessionGroup
  members : List Member
  creations : List Creation
  closers : List Nat

inductive ManagerAction where
  | createSession (parent : Nat)
  | creation (index : Nat) (answer : Except GoError RuntimeView)
  | session (id : Nat) (action : SessionAction)
  | closeSession (id : Nat)
  | beginClose (index : Nat)
  | finishSessionClose (id : Nat)
  | closeExecutionSession (parent : Nat)
  | worker (group : Nat) (order : List Nat)
  | close

namespace Manager

def new : Manager where
  closed := false
  groups := fun _ => none
  pool := []
  members := []
  creations := []
  closers := []

variable (mgr : Manager)

def setGroup (group : Nat) (next : SessionGroup) : Manager :=
  { mgr with pool := mgr.pool.set group next }

def setMember (id : Nat) (next : Member) : Manager :=
  { mgr with members := mgr.members.set id next }

def goOn (index : Nat) (creation : Creation) (pc : CreatePC) :
    Manager :=
  { mgr with creations := mgr.creations.set index { creation with pc := pc } }

/-- `delete(m.groups, parentID)`. -/
def forget (parent : Nat) : Manager :=
  { mgr with groups := Function.update mgr.groups parent none }

/-- `beginCreate`, and the call of `CreateSession` that it admits. -/
def beginCreate (parent : Nat) : Option Manager :=
  if mgr.closed then
    some mgr
  else
    match mgr.groups parent with
    | none =>
      some { mgr with
        groups := Function.update mgr.groups parent (some mgr.pool.length)
        pool := mgr.pool ++ [⟨parent, Gate.new.beginCreate.2, [], none⟩]
        creations := mgr.creations ++ [⟨parent, .createRuntime⟩] }
    | some group =>
      match mgr.pool[group]? with
      | none => none
      | some found =>
        if found.gate.beginCreate.1 then
          some { mgr.setGroup group { found with gate := found.gate.beginCreate.2 } with
            creations := mgr.creations ++ [⟨parent, .createRuntime⟩] }
        else
          some mgr

/-- The registration of a session that `CreateSession` publishes. -/
def publish (group : Nat) (found : SessionGroup)
    (runtime : RuntimeView) : Manager :=
  { mgr with
    pool := mgr.pool.set group
      { found with sessions := found.sessions ++ [mgr.members.length] }
    members := mgr.members ++
      [⟨group, .init mgr.members.length runtime, true, false, false⟩] }

/-- The section of `CreateSession` that publishes the session. -/
def commit (index : Nat) (creation : Creation)
    (runtime : RuntimeView) : Option Manager :=
  let refused :=
    some (mgr.goOn index creation (.closeRuntime mgr.closed))
  match mgr.groups creation.parent with
  | none => refused
  | some group =>
    match mgr.pool[group]? with
    | none => none
    | some found =>
      if mgr.closed = true ∨ found.gate.accepting = false then
        refused
      else
        -- the runtime that `CreateDebugRuntime` returns is one of the parent
        some ((mgr.publish group found
          { runtime with sessionID := creation.parent }).goOn index creation (.finish []))

def finishCreate (parent : Nat) : Option Manager :=
  match mgr.groups parent with
  | none => some mgr
  | some group =>
    match mgr.pool[group]? with
    | none => none
    | some found =>
      match found.gate.endCreate with
      | .error _ => none
      | .ok (idle, gate) =>
        let updated := mgr.setGroup group { found with gate := gate }
        some (if idle && gate.accepting && found.sessions.isEmpty then
          updated.forget parent
        else
          updated)

/-- One step of `CreateSession` after `beginCreate`. -/
def createStep (index : Nat) (creation : Creation)
    (answer : Except GoError RuntimeView) : Option Manager :=
  match creation.pc with
  | .createRuntime =>
    match answer with
    | .error err => some (mgr.goOn index creation (.finish err))
    | .ok runtime => some (mgr.goOn index creation (.commit runtime))
  | .commit runtime => mgr.commit index creation runtime
  | .closeRuntime managerClosed =>
    let closeErr :=
      match answer with
      | .error err => err
      | .ok _ => []
    some (mgr.goOn index creation (.finish
      (GoError.join [if managerClosed then .debugClosed else .execSessionClosed] closeErr)))
  | .finish _ =>
    (mgr.finishCreate creation.parent).map fun finished =>
      { finished with creations := mgr.creations.eraseIdx index }

/-- `detachSession`; `none` when there is no such session. -/
def detachSession (id : Nat) : Option Manager :=
  match mgr.members[id]? with
  | none => none
  | some member =>
    if member.closing then
      some mgr
    else if member.active then
      some (mgr.setMember id { member with active := false, closing := true })
    else
      none

def stepSession (id : Nat) (action : SessionAction) :
    Option Manager :=
  match mgr.members[id]? with
  | none => none
  | some member =>
    (member.machine.step action).map fun next =>
      mgr.setMember id { member with
          machine := next
          removing :=
            match action, member.machine.closer with
            | .close _, some .complete => true
            | _, _ => member.removing }

/-- The last section of `finishSessionClose`. -/
def finishSessionClose (id : Nat) : Option Manager :=
  match mgr.members[id]? with
  | none => none
  | some member =>
    if member.removing = false then
      none
    else
      let removed :=
        mgr.setMember id { member with closing := false, removing := false }
      let parent := member.machine.session.runtime.sessionID
      match mgr.groups parent with
      | none => some removed
      | some group =>
        match mgr.pool[group]? with
        | none => none
        | some found =>
          let sessions := found.sessions.erase id
          let updated := removed.setGroup group { found with sessions := sessions }
          some (if found.gate.accepting && found.gate.idle && sessions.isEmpty then
            updated.forget parent
          else
            updated)

/-- `closeExecutionSession` up to its wait, with the start of the owner. -/
def closeExecutionSession (parent : Nat) : Option Manager :=
  match mgr.groups parent with
  | none => some mgr
  | some group =>
    match mgr.pool[group]? with
    | none => none
    | some found =>
      if found.gate.beginClose.1 then
        some (mgr.setGroup group { found with
            gate := found.gate.beginClose.2
            worker := some .waitForCreates })
      else
        some mgr

/-- One step of `finishExecutionSessionClose`.  `order` is the order in which the
snapshot lists the sessions, which the iteration over a map leaves open. -/
def closeStep (group : Nat) (found : SessionGroup)
    (order : List Nat) : GroupClosePC → Option Manager
  | .waitForCreates =>
    match found.gate.waitForCreates with
    | .error _ => none
    | .ok captured =>
      some (mgr.setGroup group { found with worker := some (.awaitCreates captured) })
  | .awaitCreates captured =>
    if found.gate.createsSignalled captured then
      some (mgr.setGroup group { found with worker := some .snapshot })
    else
      none
  | .snapshot =>
    if order.Perm found.sessions then
      some (mgr.setGroup group { found with worker := some (.detachSession order []) })
    else
      none
  | .detachSession [] result =>
    some (mgr.setGroup group { found with worker := some (.finishClose result) })
  | .detachSession (id :: rest) result =>
    match mgr.detachSession id with
    | none =>
      -- `CloseSession` returns nil for a session it does not find
      some (mgr.setGroup group { found with worker := some (.detachSession rest (result.join [])) })
    | some detached =>
      some (detached.setGroup group { found with worker := some (.beginClose id rest result) })
  | .beginClose id rest result =>
    (mgr.stepSession id .beginClose).map fun begun =>
      begun.setGroup group { found with worker := some (.awaitClose id rest result) }
  | .awaitClose id rest result =>
    match mgr.members[id]? with
    | none => none
    | some member =>
      match member.machine.session.close.wait [] with
      | .ok (some err) =>
        some (mgr.setGroup group
          { found with worker := some (.detachSession rest (result.join err)) })
      | _ => none
  | .finishClose result =>
    match found.gate.finishClose result with
    | .error _ => none
    | .ok gate =>
      some (mgr.setGroup group { found with gate := gate, worker := some .delete })
  | .delete =>
    let ended := mgr.setGroup group { found with worker := none }
    some (if mgr.groups found.parent = some group then
      ended.forget found.parent
    else
      ended)

def step : ManagerAction → Option Manager
  | .createSession parent => mgr.beginCreate parent
  | .creation index answer =>
    match mgr.creations[index]? with
    | none => none
    | some creation => mgr.createStep index creation answer
  | .session id action =>
    match action with
    | .beginClose => none
    | action => mgr.stepSession id action
  | .closeSession id =>
    match mgr.detachSession id with
    | none => some mgr
    | some detached => some { detached with closers := detached.closers ++ [id] }
  | .beginClose index =>
    match mgr.closers[index]? with
    | none => none
    | some id =>
      (mgr.stepSession id .beginClose).map fun begun =>
        { begun with closers := begun.closers.eraseIdx index }
  | .finishSessionClose id => mgr.finishSessionClose id
  | .closeExecutionSession parent => mgr.closeExecutionSession parent
  | .worker group order =>
    match mgr.pool[group]? with
    | none => none
    | some found =>
      match found.worker with
      | none => none
      | some pc => mgr.closeStep group found order pc
  | .close => some { mgr with closed := true }

end Manager

end Ferretd.Debug

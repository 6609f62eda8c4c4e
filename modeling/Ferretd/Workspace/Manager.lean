import Ferretd.Lifecycle
import Ferretd.Library.Machine

/-!
# The workspace manager

`workspace.Manager` with the calls of `Open` that are under way, the filesystem
watchers and the goroutines that close the entries.  A workspace is known by the
position of the open operation that made it.  Roots are numbered, and a call of
`Open` begins here once its root is canonical.  What an entry keeps after it has left
`byID` is kept with its operation, since waiters and the closing goroutine still hold
the entry.
-/

namespace Ferretd.Workspaces

open Library

/-- What the environment answers in one step: the error of a foreign call and the
context error that a test of `ctx` would read. -/
structure Reply where
  err : GoError
  ctxErr : GoError

def Reply.quiet : Reply :=
  ⟨[], []⟩

/-! ## Workspaces, watchers and entries -/

/-- The stored `State` of a workspace; `StateClosing` is read off `closing`. -/
inductive State where
  | opening
  | ready
  | failed
  | closed
deriving DecidableEq

/-- The lifecycle of a `Workspace`. -/
structure Workspace where
  root : Nat
  state : State
  failure : GoError
  watcher : Option Nat
  closing : Bool

namespace Workspace

/-- `newWorkspace`. -/
def new (root : Nat) : Workspace :=
  ⟨root, .opening, [], none, false⟩

variable (ws : Workspace)

def setReady (watcher : Nat) : Workspace :=
  { ws with state := .ready, failure := [], watcher := some watcher }

def setFailed (err : GoError) : Workspace :=
  { ws with state := .failed, failure := err, watcher := none }

def markClosing : Workspace :=
  { ws with closing := true }

def close : Workspace :=
  if ws.state = .closed then
    ws
  else
    { ws with state := .closed, failure := [], watcher := none }

end Workspace

/-- `workspaceWatcher`: `looping` while its goroutine runs, which ends only after
`Close` has cancelled it. -/
structure Watcher where
  started : Bool
  closed : Bool
  looping : Bool

namespace Watcher

/-- `newWorkspaceWatcher`. -/
def new : Watcher :=
  ⟨false, false, false⟩

def start (watcher : Watcher) : Watcher :=
  if watcher.started || watcher.closed then
    watcher
  else
    { watcher with started := true, looping := true }

/-- `Close` up to the wait for the goroutine. -/
def close (watcher : Watcher) : Watcher :=
  { watcher with closed := true }

end Watcher

/-- `workspaceEntryState`. -/
inductive EntryState where
  | active
  | closing
deriving DecidableEq

/-- The control points of `finishClose`; `remaining` counts the hooks still to call. -/
inductive ClosePC where
  | stopWatcher
  | joinWatcher (watcher : Nat) (result : GoError)
  | hooks (remaining : Nat) (result : GoError)
  | awaitHook (remaining : Nat) (result : GoError)
  | close (result : GoError)
  | finish (result : GoError)
  | delete

/-- `workspaceEntry`; `listed` while it is in `byID`. -/
structure Entry where
  state : EntryState
  close : CloseOperation
  listed : Bool
  worker : Option ClosePC

/-- The entry that `loadAndCommit` publishes. -/
def Entry.new : Entry :=
  ⟨.active, .new, true, none⟩

/-- `openOperation` with the workspace it loads and the entry it has published. -/
structure OpenOperation where
  generation : Nat
  done : Bool
  err : GoError
  workspace : Workspace
  entry : Option Entry

namespace OpenOperation

/-- The operation that `beginOpen` registers. -/
def new (generation root : Nat) : OpenOperation :=
  ⟨generation, false, [], .new root, none⟩

variable (op : OpenOperation)

/-- The entry as `byID` has it. -/
def registered : Option Entry :=
  op.entry.filter (·.listed)

/-- The workspace is found by `Get`. -/
def active : Bool :=
  match op.registered with
  | some entry => decide (entry.state = .active)
  | none => false

/-- The section in which `Close` and `Clear` take over an active entry. -/
def takeOver (entry : Entry) : OpenOperation :=
  { op with
    workspace := op.workspace.markClosing
    entry := some { entry with
      state := .closing
      close := entry.close.begin.2
      worker := some .stopWatcher } }

def goOn (entry : Entry) (pc : ClosePC) : OpenOperation :=
  { op with entry := some { entry with worker := some pc } }

end OpenOperation

/-! ## The manager -/

/-- The control points of `Open` and of the `loadAndCommit` it may own. -/
inductive OpenPC where
  | find
  | waitForOpen (op : Nat)
  | beginOpen
  | newWatcher (op : Nat)
  | addDirectory (op watcher : Nat)
  | load (op watcher : Nat)
  | checkContext (op watcher : Nat)
  | commit (op watcher : Nat)
  | closeWatcher (op watcher : Nat) (err : GoError)
  | joinWatcher (op watcher : Nat) (err : GoError)
  | setFailed (op : Nat) (err : GoError)
  | finishOpen (op : Nat) (err : GoError)
  | returned (ws : Option Nat) (err : GoError)
deriving DecidableEq

/-- A call of `Open` with its canonical root. -/
structure OpenCall where
  root : Nat
  pc : OpenPC
deriving DecidableEq

structure Manager where
  operations : List OpenOperation
  byRoot : Nat → Option Nat
  opening : Nat → Option Nat
  watchers : List Watcher
  calls : List OpenCall
  generation : Nat
  hooks : Nat

inductive Action where
  | openRoot (root : Nat)
  | call (index : Nat) (reply : Reply)
  | close (id : Nat)
  | clear
  | worker (id : Nat) (reply : Reply)
  | watcherExits (watcher : Nat)

namespace Manager

/-- `New`, after `hooks` calls of `RegisterCloseHook`. -/
def new (hooks : Nat) : Manager where
  operations := []
  byRoot := fun _ => none
  opening := fun _ => none
  watchers := []
  calls := []
  generation := 0
  hooks := hooks

variable (m : Manager)

def setOperation (id : Nat) (next : OpenOperation) : Manager :=
  { m with operations := m.operations.set id next }

def setWatcher (watcher : Nat) (next : Watcher) : Manager :=
  { m with watchers := m.watchers.set watcher next }

/-- A call of `Open` goes on. -/
def goOn (index : Nat) (call : OpenCall) (pc : OpenPC) : Manager :=
  { m with calls := m.calls.set index { call with pc := pc } }

def joined (watcher : Nat) : Bool :=
  match m.watchers[watcher]? with
  | some found => !found.looping
  | none => true

/-- The error of `Get`. -/
def get (ctxErr : GoError) (id : Nat) : GoError :=
  if ctxErr ≠ [] then
    ctxErr
  else
    match m.operations[id]? with
    | some op => if op.active then [] else [.workspaceNotFound]
    | none => [.workspaceNotFound]

/-- The critical section of `beginOpen` for the owner of a new operation. -/
def register (root : Nat) : Manager :=
  { m with
    operations := m.operations ++ [.new m.generation root]
    opening := Function.update m.opening root (some m.operations.length) }

/-- The critical section of `loadAndCommit` for an operation that is still valid. -/
def publish (id : Nat) (op : OpenOperation)
    (watcher : Nat) (found : Watcher) : Manager :=
  { m with
    operations := m.operations.set id { op with
        done := true
        workspace := op.workspace.setReady watcher
        entry := some .new }
    watchers := m.watchers.set watcher found.start
    byRoot := Function.update m.byRoot op.workspace.root (some id)
    opening := Function.update m.opening op.workspace.root none }

def finishOpen (id : Nat) (op : OpenOperation)
    (err : GoError) : Manager :=
  { m with
    operations := m.operations.set id { op with done := true, err := err }
    opening :=
      if m.opening op.workspace.root = some id then
        Function.update m.opening op.workspace.root none
      else
        m.opening }

/-- One step of a call of `Open`. -/
def openStep (index : Nat) (call : OpenCall) (reply : Reply) :
    Option Manager :=
  match call.pc with
  | .find =>
    if reply.ctxErr ≠ [] then
      some (m.goOn index call (.returned none reply.ctxErr))
    else
      match m.byRoot call.root with
      | some id =>
        -- `m.byID[id].workspace`, a nil dereference when there is no entry
        match (m.operations[id]?).bind OpenOperation.registered with
        | none => none
        | some _ => some (m.goOn index call (.returned (some id) []))
      | none =>
        match m.opening call.root with
        | some op =>
          some (m.goOn index call (.waitForOpen op))
        | none => some (m.goOn index call .beginOpen)
  | .waitForOpen op =>
    if reply.ctxErr ≠ [] then
      some (m.goOn index call (.returned none reply.ctxErr))
    else
      match m.operations[op]? with
      | none => none
      | some found =>
        if found.done = false then
          none
        else if found.err = [] then
          some (m.goOn index call (.returned (some op) []))
        else if found.err.isContext then
          some (m.goOn index call .find)
        else
          some (m.goOn index call (.returned none found.err))
  | .beginOpen =>
    if reply.err ≠ [] then
      some (m.goOn index call (.returned none (GoError.join [.workspaceLoad] reply.err)))
    else if m.byRoot call.root ≠ none ∨ m.opening call.root ≠ none then
      some (m.goOn index call .find)
    else
      some ((m.register call.root).goOn index call (.newWatcher m.operations.length))
  | .newWatcher op =>
    if reply.err ≠ [] then
      some (m.goOn index call (.setFailed op (GoError.join [.workspaceLoad] reply.err)))
    else
      some ({ m with watchers := m.watchers ++ [Watcher.new] }.goOn index call
        (.addDirectory op m.watchers.length))
  | .addDirectory op watcher =>
    some (m.goOn index call (if reply.err = [] then
        .load op watcher
      else
        .closeWatcher op watcher reply.err))
  | .load op watcher =>
    some (m.goOn index call (if reply.err = [] then
        .checkContext op watcher
      else
        .closeWatcher op watcher reply.err))
  | .checkContext op watcher =>
    some (m.goOn index call (if reply.ctxErr = [] then
        .commit op watcher
      else
        .closeWatcher op watcher reply.ctxErr))
  | .commit op watcher =>
    match m.operations[op]?, m.watchers[watcher]? with
    | some found, some held =>
      if found.generation ≠ m.generation then
        some (m.goOn index call (.closeWatcher op watcher
          [.message "workspace manager was cleared during load"]))
      else
        some ((m.publish op found watcher held).goOn index call (.returned (some op) []))
    | _, _ => none
  | .closeWatcher op watcher err =>
    match m.watchers[watcher]? with
    | none => none
    | some held =>
      some ((m.setWatcher watcher held.close).goOn index call
        (.joinWatcher op watcher (err.join reply.err)))
  | .joinWatcher op watcher err =>
    if m.joined watcher then
      some (m.goOn index call (.setFailed op (GoError.join [.workspaceLoad] err)))
    else
      none
  | .setFailed op err =>
    match m.operations[op]? with
    | none => none
    | some found =>
      some ((m.setOperation op
        { found with workspace := found.workspace.setFailed err }).goOn index call
        (.finishOpen op err))
  | .finishOpen op err =>
    match m.operations[op]? with
    | none => none
    | some found =>
      some ((m.finishOpen op found err).goOn index call (.returned none err))
  | .returned _ _ => none

/-- `beginClose`, with the goroutine that `Close` starts as the owner. -/
def beginClose (id : Nat) : Option Manager :=
  match m.operations[id]? with
  | none => some m
  | some op =>
    match op.registered with
    | none => some m
    | some entry =>
      if entry.state = .closing then
        some m
      else if entry.close.begin.1 then
        some { m.setOperation id (op.takeOver entry) with
          byRoot := Function.update m.byRoot op.workspace.root none }
      else
        -- "workspace: active entry close has already started"
        none

/-- What `Clear` does with one entry. -/
def clearOne (op : OpenOperation) : OpenOperation :=
  match op.registered with
  | none => op
  | some entry =>
    if entry.state = .closing then op else op.takeOver entry

/-- Whether `Clear` would panic at the entry. -/
def clearable (op : OpenOperation) : Bool :=
  match op.registered with
  | none => true
  | some entry => decide (entry.state = .closing) || entry.close.begin.1

/-- The critical section of `Clear`, with the goroutines it starts. -/
def clear : Option Manager :=
  if m.operations.all clearable then
    some { m with
      operations := m.operations.map clearOne
      byRoot := fun _ => none
      opening := fun _ => none
      generation := m.generation + 1 }
  else
    none

/-- One step of `finishClose`. -/
def closeStep (id : Nat) (op : OpenOperation)
    (entry : Entry) (reply : Reply) : ClosePC → Option Manager
  | .stopWatcher =>
    match op.workspace.watcher with
    | none =>
      some (m.setOperation id (op.goOn entry (.hooks m.hooks [])))
    | some watcher =>
      match m.watchers[watcher]? with
      | none => none
      | some held =>
        some ((m.setWatcher watcher held.close).setOperation id
          (op.goOn entry (.joinWatcher watcher reply.err)))
  | .joinWatcher watcher result =>
    if m.joined watcher then
      some (m.setOperation id (op.goOn entry (.hooks m.hooks result)))
    else
      none
  | .hooks 0 result =>
    some (m.setOperation id (op.goOn entry (.close result)))
  | .hooks (remaining + 1) result =>
    some (m.setOperation id (op.goOn entry (.awaitHook remaining result)))
  | .awaitHook remaining result =>
    some (m.setOperation id (op.goOn entry (.hooks remaining (result.join reply.err))))
  | .close result =>
    some (m.setOperation id { op.goOn entry (.finish result) with
        workspace := op.workspace.close })
  | .finish result =>
    match entry.close.finish result with
    | .error _ => none
    | .ok close =>
      some (m.setOperation id (op.goOn { entry with close := close } .delete))
  | .delete =>
    some (m.setOperation id
      { op with entry := some { entry with listed := false, worker := none } })

def step : Action → Option Manager
  | .openRoot root =>
    some { m with calls := m.calls ++ [⟨root, .find⟩] }
  | .call index reply =>
    match m.calls[index]? with
    | none => none
    | some call => m.openStep index call reply
  | .close id => m.beginClose id
  | .clear => m.clear
  | .worker id reply =>
    match m.operations[id]? with
    | none => none
    | some op =>
      match op.entry with
      | none => none
      | some entry =>
        match entry.worker with
        | none => none
        | some pc => m.closeStep id op entry reply pc
  | .watcherExits watcher =>
    match m.watchers[watcher]? with
    | none => none
    | some held =>
      if held.looping && held.closed then
        some (m.setWatcher watcher { held with looping := false })
      else
        none

end Manager

end Ferretd.Workspaces

import Ferretd.Documents.Refresh

/-!
# A workspace and the mutations of it

The state of a workspace with the mutation under way, which holds `mutationGate`.  A step
of the mutation is one operation, answered by the file system of that moment.
-/

namespace Ferretd.Documents

open Library

/-- `watchRegistration` of the mutation under way. -/
structure Registration where
  added : List Key
  committed : Bool

def Registration.new : Registration :=
  ⟨[], false⟩

structure Shared where
  store : Store
  watch : Watch
  registration : Registration

def Shared.initial : Shared :=
  ⟨.new, .new, .new⟩

namespace Shared

variable (site : Site) (env : Environment)

variable (shared : Shared)

def observe (dir : Key) : GoError × Shared :=
  let result := shared.watch.addDirectory site env dir
  (result.1.2, { shared with
      watch := result.2
      registration := { shared.registration with
        added :=
          if result.1.1 then
            shared.registration.added ++ [dir]
          else
            shared.registration.added } })

/-- `registration.finish`. -/
def finishRegistration : GoError × Shared :=
  if shared.registration.committed = false ∧ shared.registration.added ≠ [] then
    let result :=
      Watch.removeDirectories site env shared.registration.added ([], shared.watch)
    (result.1, { shared with watch := result.2 })
  else
    ([], shared)

/-- `beginMutation`, for a caller that the gate lets in. -/
def beginMutation : GoError :=
  if env.ctxErr ≠ [] then
    env.ctxErr
  else if shared.store.closing then
    [.workspaceClosed]
  else
    []

/-- The critical section of `reconcileDocument`. -/
def commitDocument (key : Key) (explicit admitted : Bool)
    (discovered : Option Document) : Except GoError (Option Document) × Shared :=
  if shared.store.closing = true ∨ shared.store.state ≠ .ready then
    (.error [.workspaceClosed], shared)
  else if env.ctxErr ≠ [] then
    (.error env.ctxErr, shared)
  else
    let result := shared.store.commitDocument key explicit admitted discovered
    (.ok result.2.2, { shared with
        store := result.1
        registration := { shared.registration with committed := result.2.1 } })

/-- The critical section of `reconcileTree`. -/
def commitTree (subtree : Key) (content : WorkspaceContent) :
    GoError × Shared :=
  if env.ctxErr ≠ [] then
    (env.ctxErr, shared)
  else if shared.store.closing = true ∨ shared.store.state ≠ .ready then
    ([.workspaceClosed], shared)
  else
    ([], { shared with
      store := shared.store.applyContent subtree content
      registration := { shared.registration with committed := true } })

def perform : (op : Op) → Option (op.Answer × Shared)
  | .ctxErr => some (env.ctxErr, shared)
  | .openRoot => some (env.openRoot, shared)
  | .closeRoot => some (env.closeRoot, shared)
  | .readDir dir => some (env.readDir dir, shared)
  | .lstat key => some (env.lstat key, shared)
  | .openFile key => some (env.openFile key, shared)
  | .handleInfo handle => some (env.handleInfo handle, shared)
  | .readAll handle => some (env.readAll handle, shared)
  | .readFile key => some (env.readFile key, shared)
  | .lstatAbsolute key => some (env.lstatAbsolute key, shared)
  | .observe dir => some (shared.observe site env dir)
  | .beginMutation => some (shared.beginMutation env, shared)
  | .lookup key =>
    some ((shared.store.watching, decide (key ∈ shared.store.explicitPaths)),
      { shared with registration := .new })
  | .selections subtree =>
    some ((shared.store.watching,
        sortKeys (shared.store.explicitPaths.filter (workspacePathInSubtree · subtree))),
      { shared with registration := .new })
  | .commitDocument key explicit admitted discovered =>
    some (shared.commitDocument env key explicit admitted discovered)
  | .commitTree subtree content => some (shared.commitTree env subtree content)
  | .finishRegistration => some (shared.finishRegistration site env)
  | .replaceSubtree subtree directories =>
    let result := shared.watch.replaceSubtree site env subtree directories
    some (result.1, { shared with watch := result.2 })
  | .watchesSubtree subtree =>
    some (shared.store.watching && shared.watch.watchesSubtree site subtree, shared)
  | .diverge => none

end Shared

inductive Call where
  | refreshDocument (relativePath : Text)
  | reconcileDocument (relativePath : Text) (explicit : Bool)
  | reconcileTree (relativePath : Text)
  | reconcileWatchEvent (rename : Bool) (relativePath : Text)

def Call.code (site : Site) (fuel : Nat) : Call → Code (Option Document)
  | .refreshDocument relativePath => Documents.refreshDocument site relativePath
  | .reconcileDocument relativePath explicit =>
    Documents.reconcileDocument site relativePath explicit
  | .reconcileTree relativePath => Documents.reconcileTree site fuel relativePath
  | .reconcileWatchEvent rename relativePath =>
    Documents.reconcileWatchEvent site fuel rename relativePath

/-- The load of `loadAndCommit`, up to its last test of the context. -/
def openCode (site : Site) (fuel : Nat) : Code WorkspaceContent := do
  check (← Documents.observe true [])
  let content ← loadWorkspace site true fuel
  checkContext
  return content

abbrev Running (Value : Type) := Program Op Op.Answer (Except GoError Value)

/-- Who is at work: the load of an open, or a call that holds the gate. -/
inductive Task where
  | loading (code : Running WorkspaceContent)
  | mutation (code : Running (Option Document))

structure Machine where
  shared : Shared
  task : Option Task

inductive Label where
  | open_ (fuel : Nat)
  | publish
  | discard
  | start (call : Call) (fuel : Nat)
  | step (env : Environment)
  | return_
  | markClosing
  | closeWatch
  | close

namespace Machine

def new : Machine where
  shared := .initial
  task := none

def advance {Value : Type} (site : Site) (env : Environment) (shared : Shared) :
    Running Value → Option (Running Value × Shared)
  | .done _ => none
  | .call op next =>
    (shared.perform site env op).map fun result => (next result.1, result.2)

def setStore (m : Machine) (store : Store) : Machine :=
  { m with shared := { m.shared with store := store } }

/-- Whether the workspace has an entry in the manager, which alone can be closed. -/
def published (m : Machine) : Bool :=
  decide (m.shared.store.state = .ready) || decide (m.shared.store.state = .closed)

def step (site : Site) (m : Machine) : Label → Option Machine
  | .open_ fuel =>
    if m.task.isNone ∧ m.shared.store.state = .opening then
      some { m with task := some (.loading (openCode site fuel).run) }
    else
      none
  | .publish =>
    match m.task with
    | some (.loading (.done (.ok content))) =>
      some { m.setStore (m.shared.store.setReady content) with task := none }
    | _ => none
  | .discard =>
    match m.task with
    | some (.loading (.done _)) =>
      some { m.setStore m.shared.store.setFailed with task := none }
    | _ => none
  | .start call fuel =>
    if m.task.isNone ∧ m.published = true then
      some { m with task := some (.mutation (call.code site fuel).run) }
    else
      none
  | .step env =>
    match m.task with
    | some (.loading code) =>
      (advance site env m.shared code).map fun result =>
        ⟨result.2, some (.loading result.1)⟩
    | some (.mutation code) =>
      (advance site env m.shared code).map fun result =>
        ⟨result.2, some (.mutation result.1)⟩
    | none => none
  | .return_ =>
    match m.task with
    | some (.mutation (.done _)) => some { m with task := none }
    | _ => none
  | .markClosing =>
    if m.published then
      some (m.setStore m.shared.store.markClosing)
    else
      none
  | .closeWatch =>
    some { m with
      shared := { m.shared with watch := m.shared.watch.close } }
  | .close =>
    if m.published then
      some (m.setStore m.shared.store.close)
    else
      none

end Machine

end Ferretd.Documents

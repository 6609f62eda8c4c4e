import Ferretd.Exec.ManagerSeal
import Ferretd.Workspace.ManagerHooks

/-!
# The workspace manager and the execution manager together

`exec.New` registers `CloseWorkspace` as the close hook of the workspace manager, and
`CreateSession` asks the workspace manager for the workspace.  A call of the hook returns
when the close operation of the workspace's group has published its result.
-/

namespace Ferretd.Composition

open Library

/-- `hooked` is the group that the close hook of a workspace waits for. -/
structure Managers where
  workspaces : Workspaces.Manager
  executions : Exec.Manager
  hooked : Nat → Option Nat

inductive Action where
  | workspace (action : Workspaces.Action)
  | execution (action : Exec.ManagerAction)

namespace Managers

def new (hooks : Nat) (materialize : Nat → GoError → RuntimeFailure) : Managers where
  workspaces := .new 1
  executions := .new hooks materialize
  hooked := fun _ => none

variable (managers : Managers)

/-- Where the goroutine that closes a workspace stands. -/
def closePC (id : Nat) : Option Workspaces.ClosePC :=
  ((managers.workspaces.operations[id]?).bind (·.entry)).bind (·.worker)

/-- The call of `workspaces.Get` in `prepareSession` is answered by the workspace
manager. -/
def resolve : Exec.ManagerAction → Exec.ManagerAction
  | .creation group index answer =>
    match managers.executions.pool[group]? with
    | none => .creation group index answer
    | some found =>
      if found.creations[index]? = some .get then
        .creation group index { answer with
            err := managers.workspaces.get answer.ctxErr found.workspace }
      else
        .creation group index answer
  | action => action

/-- A step of `finishClose` of the workspace manager. -/
def workerStep (id : Nat) (reply : Workspaces.Reply) :
    Option Managers :=
  match managers.closePC id with
  | some (.hooks (_ + 1) _) =>
    match managers.executions.beginWorkspaceClose id,
      managers.workspaces.step (.worker id reply) with
    | some executions, some workspaces =>
      some ⟨workspaces, executions, Function.update managers.hooked id
        (some (managers.executions.groupOf id).2)⟩
    | _, _ => none
  | some (.awaitHook _ _) =>
    match managers.hooked id with
    | none => none
    | some group =>
      match managers.executions.pool[group]? with
      | none => none
      | some found =>
        match found.gate.waitClose [] with
        | .ok (some err) =>
          (managers.workspaces.step (.worker id { reply with err := err })).map
            fun workspaces => { managers with workspaces := workspaces }
        | _ => none
  | _ =>
    (managers.workspaces.step (.worker id reply)).map
      fun workspaces => { managers with workspaces := workspaces }

def step : Action → Option Managers
  | .workspace (.worker id reply) => managers.workerStep id reply
  | .workspace action =>
    (managers.workspaces.step action).map
      fun workspaces => { managers with workspaces := workspaces }
  | .execution action =>
    (managers.executions.step (managers.resolve action)).map
      fun executions => { managers with executions := executions }

end Managers

inductive Effect (managers : Managers) : Managers → Prop
  | execution {action : Exec.ManagerAction} {executions}
      (taken : managers.executions.step (managers.resolve action) = some executions) :
      Effect managers { managers with executions := executions }
  | workspace {action : Workspaces.Action} {workspaces}
      (taken : managers.workspaces.step action = some workspaces)
      (calls : ∀ id reply remaining result, action = .worker id reply →
        managers.closePC id ≠ some (.hooks (remaining + 1) result))
      (answers : ∀ id reply remaining result, action = .worker id reply →
        managers.closePC id = some (.awaitHook remaining result) →
          ∃ group found, managers.hooked id = some group ∧
            managers.executions.pool[group]? = some found ∧
            found.gate.close.state = .finished) :
      Effect managers { managers with workspaces := workspaces }
  | hook {remaining result executions} {reply : Workspaces.Reply} {workspaces} {id : Nat}
      (calls : managers.closePC id = some (.hooks (remaining + 1) result))
      (begun : managers.executions.beginWorkspaceClose id = some executions)
      (taken : managers.workspaces.step (.worker id reply) = some workspaces) :
      Effect managers ⟨workspaces, executions, Function.update managers.hooked id
        (some (managers.executions.groupOf id).2)⟩

variable {reply : Workspaces.Reply} {next managers : Managers} {action : Action}

theorem Effect.of_workerStep {id : Nat} (taken : managers.workerStep id reply = some next) :
    Effect managers next := by
  simp only [Managers.workerStep] at taken
  split at taken
  next remaining result pc =>
    split at taken
    next executions workspaces begun moved =>
      cases taken
      exact Effect.hook pc begun moved
    · cases taken
  next remaining result pc =>
    split at taken
    · cases taken
    rename_i group hooked
    split at taken
    · cases taken
    rename_i found present
    split at taken
    next err waited =>
      obtain ⟨workspaces, moved, rfl⟩ := Option.map_eq_some_iff.mp taken
      refine Effect.workspace moved ?_ ?_
      · intro other known left joined same calls
        cases same
        rw [pc] at calls
        cases calls
      intro other known left joined same _
      cases same
      refine ⟨group, found, hooked, present, ?_⟩
      cases state : found.gate.close.state <;>
        simp_all [Gate.waitClose, CloseOperation.wait]
    · cases taken
  next unhooked unawaited =>
    obtain ⟨workspaces, moved, rfl⟩ := Option.map_eq_some_iff.mp taken
    refine Effect.workspace moved ?_ ?_
    · intro other known left joined same
      cases same
      exact unhooked left joined
    · intro other known left joined same waits
      cases same
      exact absurd waits (unawaited left joined)

theorem Effect.of_step (taken : managers.step action = some next) : Effect managers next := by
  have plain : ∀ {own : Workspaces.Action},
      (∀ id reply, own ≠ .worker id reply) →
      ((managers.workspaces.step own).map
        fun workspaces => { managers with workspaces := workspaces }) = some next →
      Effect managers next := by
    intro own different moved
    obtain ⟨workspaces, stepped, rfl⟩ := Option.map_eq_some_iff.mp moved
    refine Effect.workspace stepped ?_ ?_
    · intro id reply remaining result same
      exact absurd same (different id reply)
    · intro id reply remaining result same
      exact absurd same (different id reply)
  cases action with
  | workspace own =>
    cases own with
    | worker => exact Effect.of_workerStep taken
    | _ =>
      simp only [Managers.step] at taken
      exact plain (by simp) taken
  | execution own =>
    obtain ⟨executions, stepped, rfl⟩ := Option.map_eq_some_iff.mp taken
    exact Effect.execution stepped

end Ferretd.Composition

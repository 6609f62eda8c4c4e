import Ferretd.Exec.ExecutionTeardown

/-!
# The execution registry

`executionRegistry` keeps every Execution reachable by its ID and, per Session, the
Executions whose cleanup the Session still has to collect.  All its functions touch
the entries of one Session only, so the model is the part of the registry for one
Session, where an Execution is known by its position.  Every definition is one critical
section of `executionRegistry.mu`.
-/

namespace Ferretd.Exec

inductive RegistryState where
  | active
  | closing
deriving DecidableEq

/-- `executionEntry`, with the Execution and the goroutines that act on it.
`removed` says that the owner of the close operation has run `finishClose`. -/
structure ExecutionEntry where
  machine : ExecutionMachine
  state : RegistryState
  removed : Bool

/-- `executionGroup`; its `parent` is the Session the model is about. -/
structure ExecutionGroup where
  state : RegistryState
  entries : List Nat

/-- `executionRegistry`: the keys of `entries`, and `bySession` at the Session. -/
structure ExecutionRegistry where
  entries : List Nat
  group : Option ExecutionGroup

/-- `beginCloseLocked`; the Boolean is `owner`, and an owner starts
`finishExecutionClose`. -/
def ExecutionEntry.beginCloseLocked (entry : ExecutionEntry) :
    Except Panic (Bool × ExecutionEntry) :=
  if entry.state = .closing then
    .ok (false, entry)
  else if entry.machine.execution.beginClose.1 then
    .ok (true, { entry with machine := entry.machine.beginClose, state := .closing })
  else
    .error ⟨"execution: active Execution close has already started"⟩

namespace ExecutionRegistry

def new : ExecutionRegistry :=
  ⟨[], none⟩

variable (registry : ExecutionRegistry)

def add (id : Nat) :
    Except Panic ExecutionRegistry :=
  if id ∈ registry.entries then
    .error ⟨"execution: duplicate Execution ID"⟩
  else
    match registry.group with
    | none => .ok ⟨registry.entries ++ [id], some ⟨.active, [id]⟩⟩
    | some group =>
      if group.state ≠ .active then
        .error ⟨"execution: closing Session accepted an Execution"⟩
      else
        .ok ⟨registry.entries ++ [id], some { group with entries := group.entries ++ [id] }⟩

/-- The loop of `beginSessionClose` over the entries of the group. -/
def beginCloseAll (executions : List ExecutionEntry) :
    List Nat → Except Panic (List ExecutionEntry)
  | [] => .ok executions
  | id :: rest =>
    match executions[id]? with
    | none => beginCloseAll executions rest
    | some entry =>
      match entry.beginCloseLocked with
      | .error panic => .error panic
      | .ok (_, begun) => beginCloseAll (executions.set id begun) rest

/-- `beginSessionClose` on the registry itself. -/
def beginSessionClose : ExecutionRegistry :=
  match registry.group with
  | none => registry
  | some group =>
    if group.entries = [] then
      { registry with group := none }
    else
      { registry with group := some { group with state := .closing } }

/-- The keys that `beginSessionClose` ranges over. -/
def children : List Nat :=
  match registry.group with
  | none => []
  | some group => group.entries

/-- `finishClose`; `closeStarted` is `group.parent.closeStarted()`. -/
def finishClose (id : Nat) (closeStarted : Bool) :
    ExecutionRegistry :=
  let entries := registry.entries.erase id
  match registry.group with
  | none => ⟨entries, none⟩
  | some group =>
    -- The parent has stopped admission and not yet collected its children.
    if group.state = .active ∧ closeStarted = true then
      ⟨entries, some group⟩
    else
      let remaining := group.entries.erase id
      if group.state = .closing ∧ remaining = [] then
        ⟨entries, none⟩
      else
        ⟨entries, some { group with entries := remaining }⟩

def finishSessionClose : ExecutionRegistry :=
  { registry with group := none }

end ExecutionRegistry

end Ferretd.Exec

import Ferretd.Debug.Session

/-!
# Inspecting a debug session

Frames, scopes, variables and evaluations are read from the debugger while the session
is stopped; breakpoints are replaced while it has not ended.  The debugger's own answer
comes in as an argument, and the session only decides whether it is asked.
-/

namespace Ferretd.Debug

/-- `apidebugger.Value`; a reference of zero has nothing to expand. -/
structure Value where
  display : String
  type : String
  reference : Nat
deriving DecidableEq

structure Variable where
  name : String
  value : Value
  param : Bool
deriving DecidableEq

structure Frame where
  name : String
  location : Location

inductive ScopeKind where
  | locals
  | parameters

structure Scope where
  kind : ScopeKind
  name : String
  contents : List Variable

/-- The two scopes that `session.scopes` makes of the variables of a frame. -/
def scopesOf (items : List Variable) : List Scope :=
  [⟨.locals, "Locals", items.filter fun item => !item.param⟩,
    ⟨.parameters, "Parameters", items.filter Variable.param⟩]

namespace Session

variable (s : Session)

def requireActive : GoError :=
  if s.state.terminal || s.terminating || s.close.started then
    [.debugSessionTerminal]
  else
    []

def requireStopped : GoError :=
  if s.state = .running then
    [.debugSessionRunning]
  else if s.state ≠ .stopped ∨ s.close.started = true then
    [.debugSessionNotStopped]
  else
    []

/-- The common shape of `frames`, `scopes`, `variables` and `evaluate`. -/
def inspect {Data : Type} (s : Session) (ctxErr : GoError)
    (answer : Except GoError Data) : Except GoError Data :=
  if ctxErr ≠ [] then
    .error ctxErr
  else if s.requireStopped ≠ [] then
    .error s.requireStopped
  else
    answer

def replaceBreakpoints {Data : Type} (s : Session) (ctxErr : GoError)
    (answer : Except GoError Data) : Except GoError Data :=
  if ctxErr ≠ [] then
    .error ctxErr
  else if s.requireActive ≠ [] then
    .error s.requireActive
  else
    answer

/-- `pause`, with what the debugger answers. -/
def pause (ctxErr answer : GoError) : GoError :=
  if ctxErr ≠ [] then
    ctxErr
  else if s.state ≠ .running then
    [.debugSessionNotRunning]
  else
    answer

theorem stopped_of_inspect {Data : Type} {s : Session} {ctxErr : GoError}
    {answer : Except GoError Data} {data : Data} (read : s.inspect ctxErr answer = .ok data) :
    s.state = .stopped := by
  unfold inspect at read
  split at read
  · cases read
  split at read
  · cases read
  rename_i passed
  by_contra other
  apply passed
  unfold requireStopped
  split
  · exact List.cons_ne_nil _ _
  · rw [if_pos (Or.inl other)]
    exact List.cons_ne_nil _ _

end Session

end Ferretd.Debug

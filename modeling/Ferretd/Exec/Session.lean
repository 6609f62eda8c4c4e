import Ferretd.Exec.Runtime
import Ferretd.Lifecycle

/-!
# Executable sessions

`session` owns one normal Plan, at most one debug Plan, the leases on that debug Plan
and the gate that admits runtime creations.  Every definition is one critical section
of `session.mu`; the gate has its own lock and its operations are used directly.
Plans are known by the number under which the runtime handed them out, and the two
channels of the debug Plan carry numbers as the channels of a gate do.
-/

namespace Ferretd.Exec

/-- `session`.  `materialize` renders an error with the session's source text. -/
structure Session where
  id : Nat
  workspace : Nat
  materialize : GoError → RuntimeFailure
  plan : Option Nat
  debugPlan : Option Nat
  debugCompileDone : Option Nat
  debugCompileErr : GoError
  debugRuntimeDone : Option Nat
  debugCompiling : Bool
  debugCompileFailed : Bool
  debugRuntimes : Nat
  children : Gate
  channels : Nat

/-- What the first critical section of `acquireDebugRuntimeTarget` decides. -/
inductive Acquisition where
  | rejected (err : GoError)
  | leased (plan : Nat)
  | await (channel : Option Nat)
  | compile

namespace Session

def newSession (id ws : Nat) (plan : Nat)
    (materialize : GoError → RuntimeFailure) : Session where
  id := id
  workspace := ws
  materialize := materialize
  plan := some plan
  debugPlan := none
  debugCompileDone := none
  debugCompileErr := []
  debugRuntimeDone := none
  debugCompiling := false
  debugCompileFailed := false
  debugRuntimes := 0
  children := Gate.new
  channels := 0

variable (session : Session)

def runtimeTarget : RuntimeTarget :=
  ⟨session.id, session.plan⟩

/-- `newDebugRuntimeTargetLocked`: one more lease on the debug Plan. -/
def newDebugRuntimeTargetLocked : Session :=
  if session.debugRuntimes = 0 then
    { session with
      debugRuntimeDone := some session.channels
      channels := session.channels + 1
      debugRuntimes := 1 }
  else
    { session with debugRuntimes := session.debugRuntimes + 1 }

/-- The head of the loop of `acquireDebugRuntimeTarget`. -/
def acquireDebugRuntimeTarget : Acquisition × Session :=
  if session.children.accepting = false then
    (.rejected [.execSessionClosed], session)
  else
    match session.debugPlan with
    | some plan => (.leased plan, session.newDebugRuntimeTargetLocked)
    | none =>
      if session.debugCompileFailed then
        (.rejected session.debugCompileErr, session)
      else if session.debugCompiling then
        (.await session.debugCompileDone, session)
      else
        (.compile, { session with
            debugCompiling := true
            debugCompileDone := some session.channels
            channels := session.channels + 1 })

/-- The section after `compileDebug` has returned; the Boolean is `closing`. -/
def commitCompile (plan : Option Nat) (err : GoError) :
    Bool × Session :=
  let closing := !session.children.accepting
  let stored :=
    if err = [] ∧ closing = false then
      { session with debugPlan := plan }.newDebugRuntimeTargetLocked
    else if err ≠ [] ∧ err.isContext = false then
      { session with debugCompileErr := err, debugCompileFailed := true }
    else
      session
  (closing, { stored with debugCompiling := false, debugCompileDone := none })

def releaseDebugRuntime : Session :=
  if session.debugRuntimes = 0 then
    session
  else if session.debugRuntimes = 1 then
    { session with debugRuntimes := 0, debugRuntimeDone := none }
  else
    { session with debugRuntimes := session.debugRuntimes - 1 }

/-- The last section of `releasePlans`, which is also the section of
`closeUnpublished`. -/
def takePlans : Option Nat × Option Nat × Session :=
  (session.plan, session.debugPlan, { session with plan := none, debugPlan := none })

def closeUnpublished : Option Nat × Session :=
  (session.plan, { session with plan := none })

end Session

end Ferretd.Exec

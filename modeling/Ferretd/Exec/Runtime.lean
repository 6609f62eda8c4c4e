import Ferretd.Values

/-!
# The execution runtime

`executionRuntime` owns the Universal session of one ordinary or debugger execution.
Foreign calls (`Plan.NewSession`, `Session.Run`, `Session.Close`) are answered by the
environment through `Answer`.  A call and what the source does with its result up to
the next foreign call or critical section are one step of `runStep`.
-/

namespace Ferretd.Exec

/-- `FailureCategory`; `unspecified` is the zero value. -/
inductive FailureCategory where
  | unspecified
  | sessionCreation
  | runtime
  | cleanup

/-- The states of a `sync.Once` whose function takes time. -/
inductive Once where
  | idle
  | running
  | done
deriving DecidableEq

/-- What the environment answers in one step: the object a foreign call returns,
its error, its output, and the context error a `ctx.Err()` test would read. -/
structure Answer where
  object : Option Nat
  err : GoError
  output : Option Output
  ctxErr : GoError

namespace Answer

def quiet : Answer :=
  ⟨none, [], none, []⟩

def failing (err : GoError) : Answer :=
  { quiet with err := err }

def returning (object : Nat) : Answer :=
  { quiet with object := some object }

end Answer

/-- `runtimeTarget`: the Session it belongs to and the Plan it invokes. -/
structure RuntimeTarget where
  sessionID : Nat
  plan : Option Nat

structure RuntimeInput where
  parameters : Parameters
  options : RuntimeOptions

/-- `executionRuntime`.  `cause` is `context.Cause` of its context, and `materialize`
renders a non-nil error together with its source diagnostics. -/
structure ExecutionRuntime where
  target : RuntimeTarget
  input : RuntimeInput
  cause : GoError
  session : Option Nat
  closeOnce : Once
  closeErr : GoError
  materialize : GoError → RuntimeFailure

/-- `runtimeRunResult`. -/
structure RunResult where
  output : Option Output
  err : GoError
  category : FailureCategory

def newExecutionRuntime (target : RuntimeTarget) (input : RuntimeInput)
    (materialize : GoError → RuntimeFailure) : ExecutionRuntime where
  target := target
  input := input
  cause := []
  session := none
  closeOnce := .idle
  closeErr := []
  materialize := materialize

namespace ExecutionRuntime

variable (runtime : ExecutionRuntime)

/-- The `context.CancelCauseFunc` of the runtime's context: the first cause stays. -/
def cancel : ExecutionRuntime :=
  if runtime.cause = [] then
    { runtime with cause := [.executionCancellationRequested] }
  else
    runtime

/-- The entry of `closeOnce.Do` in `closeSession`: `none` while another caller is
inside, otherwise the session to close, if it is still to be closed. -/
def enterClose :
    Option (ExecutionRuntime × Option Nat) :=
  match runtime.closeOnce with
  | .running => none
  | .done => some (runtime, none)
  | .idle =>
    match runtime.session with
    | none => some ({ runtime with closeOnce := .done }, none)
    | some session => some ({ runtime with closeOnce := .running }, some session)

/-- The return of the session's `Close` inside `closeOnce.Do`. -/
def returnClose (err : GoError) : ExecutionRuntime :=
  { runtime with closeOnce := .done, closeErr := err }

end ExecutionRuntime

/-- The control points of `executionRuntime.run`. -/
inductive RunPC where
  | newSession
  | closeFailed (session : Nat) (err : GoError)
  | run
  | enterClose (output : Option Output) (runErr : GoError)
  | returnClose (output : Option Output) (runErr : GoError)
  | finish (result : RunResult)

def runResult (output : Option Output) (runErr closeErr : GoError) : RunResult where
  output := output
  err := runErr.join closeErr
  category :=
    if runErr = [] ∧ closeErr ≠ [] then .cleanup else .runtime

/-- One step of `run`; the last component is the session whose `Close` is called. -/
def runStep (runtime : ExecutionRuntime) (answer : Answer) :
    RunPC → Option (ExecutionRuntime × RunPC × Option Nat)
  | .newSession =>
    match answer.err, answer.object with
    | [], none =>
      some (runtime, .finish ⟨none, [.message "runtime returned no session"],
        .sessionCreation⟩, none)
    | [], some session => some ({ runtime with session := some session }, .run, none)
    | err, none => some (runtime, .finish ⟨none, err, .sessionCreation⟩, none)
    | err, some session => some (runtime, .closeFailed session err, none)
  | .closeFailed session err =>
    some (runtime, .finish ⟨none, err.join answer.err, .sessionCreation⟩, some session)
  | .run => some (runtime, .enterClose answer.output answer.err, none)
  | .enterClose output runErr =>
    match runtime.enterClose with
    | none => none
    | some (entered, some session) =>
      some (entered, .returnClose output runErr, some session)
    | some (entered, none) =>
      some (entered, .finish (runResult output runErr entered.closeErr), none)
  | .returnClose output runErr =>
    some (runtime.returnClose answer.err, .finish (runResult output runErr answer.err), none)
  | .finish _ => none

/-- The number of sessions a step of `run` is handed by the runtime. -/
def RunPC.opened (answer : Answer) : RunPC → Nat
  | .newSession => answer.object.toList.length
  | _ => 0

/-- Control points of `run` that are consistent with its results: a failed run always
names one of the three failing phases. -/
def RunPC.Categorized : RunPC → Prop
  | .finish result => result.category ≠ .unspecified
  | _ => True

theorem runResult_category (output : Option Output) (runErr closeErr : GoError) :
    (runResult output runErr closeErr).category ≠ .unspecified := by
  unfold runResult
  dsimp only
  split <;> simp

theorem runStep_categorized {runtime next : ExecutionRuntime} {answer : Answer} {pc pc' : RunPC}
    {closed : Option Nat}
    (taken : runStep runtime answer pc = some (next, pc', closed)) :
    pc'.Categorized := by
  cases pc with
  | newSession =>
    simp only [runStep] at taken
    split at taken <;> cases taken <;> simp [RunPC.Categorized]
  | closeFailed =>
    cases taken
    simp [RunPC.Categorized]
  | run =>
    cases taken
    trivial
  | enterClose =>
    simp only [runStep] at taken
    split at taken
    · cases taken
    · cases taken
      trivial
    · cases taken
      exact runResult_category _ _ _
  | returnClose =>
    cases taken
    exact runResult_category _ _ _
  | finish => cases taken

end Ferretd.Exec

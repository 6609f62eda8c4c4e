import Ferretd.Library.Machine
import Ferretd.Debug.Session

/-!
# The debug session machine

One debug session with everything that acts on it: resume requests that have read
the stop they intend to leave and not yet committed, command goroutines whose result
is outstanding, termination goroutines, the owner of the close operation, and any
number of subscribers.  A step is one critical section.
-/

namespace Ferretd.Debug

open Library Library.Broadcast

inductive ResumeKind where
  | continueExecution
  | stepIn
  | stepOver
  | stepOut

/-- A call of `resumeCommand` after its first critical section, with the state and
the reason it read there. -/
structure ResumeRequest where
  kind : ResumeKind
  state : State
  reason : Option Reason

/-- The local variable `runtimeErrorResume`. -/
def ResumeRequest.runtimeErrorResume (req : ResumeRequest) : Bool :=
  decide (req.state = .stopped ∧ req.reason = some .runtimeError)

/-- Where a command came from; `resumed` records the reason of the stop it left. -/
inductive Origin where
  | started
  | resumed (reason : Option Reason)
deriving DecidableEq

/-- A goroutine of `runCommand` whose command has not returned yet. -/
structure Command where
  runtimeErrorResume : Bool
  origin : Origin
deriving DecidableEq

/-- The control points of `settleClose` and `completeClose`. -/
inductive ClosePC where
  | requestTermination
  | awaitTerminal
  | closeRuntime
  | releaseWatchers
  | complete

structure SessionMachine where
  session : Session
  requests : Nat → Option ResumeRequest
  commands : List Command
  terminations : Nat
  closer : Option ClosePC

inductive SessionAction where
  | start (ctxErr : GoError)
  | requestResume (req : Nat) (kind : ResumeKind)
  | commitResume (req : Nat) (ctxErr : GoError)
  | commandReturns (index : Nat) (event : Option RuntimeEvent) (err : GoError)
  | pause (ctxErr : GoError) (answer : GoError)
  | terminateExecution (ctxErr : GoError)
  | terminate
  | beginClose
  | close (err : GoError)
  | subscribe (handle : Nat)
  | unsubscribe (handle : Nat)
  | readEvent (handle : Nat)
  | readError (handle : Nat)

namespace SessionMachine

def init (id : Nat) (runtime : RuntimeView) : SessionMachine where
  session := .newSession id runtime
  requests := fun _ => none
  commands := []
  terminations := 0
  closer := none

variable (m : SessionMachine)

def watch (action : Hub Event Cause → Hub Event Cause) : SessionMachine :=
  { m with
    session := { m.session with watchers := action m.session.watchers } }

/-- `requestTermination` together with the start of its goroutine. -/
def requestTermination : SessionMachine :=
  { m with
    session := m.session.requestTermination.2
    terminations :=
      if m.session.requestTermination.1 then
        m.terminations + 1
      else
        m.terminations }

/-- `startCommand` together with the start of its goroutine. -/
def startCommand (ctxErr : GoError)
    (expected : State) (command : Command) : SessionMachine :=
  match m.session.startCommand ctxErr expected with
  | .error _ => m
  | .ok (_, started) =>
    { m with session := started, commands := m.commands ++ [command] }

def closeStep (err : GoError) :
    ClosePC → Option SessionMachine
  | .requestTermination =>
    some { m.requestTermination with closer := some .awaitTerminal }
  | .awaitTerminal =>
    -- `<-d.terminalDone`
    if m.session.terminalDone = 0 then
      none
    else
      some { m with closer := some .closeRuntime }
  | .closeRuntime => some { m with closer := some .releaseWatchers }
  | .releaseWatchers =>
    some { m with
      session := m.session.releaseWatchers, closer := some .complete }
  | .complete =>
    match m.session.completeClose err with
    | .error _ => none
    | .ok closed => some { m with session := closed, closer := none }

def step : SessionAction → Option SessionMachine
  | .start ctxErr => some (m.startCommand ctxErr .created ⟨false, .started⟩)
  | .requestResume req kind =>
    match m.requests req with
    | some _ => none
    | none =>
      some { m with
        requests := Function.update m.requests req
          (some ⟨kind, m.session.state, m.session.reason⟩) }
  | .commitResume req ctxErr =>
    match m.requests req with
    | none => none
    | some pending =>
      some ({ m with
        requests := Function.update m.requests req none }.startCommand ctxErr .stopped
          ⟨pending.runtimeErrorResume, .resumed m.session.reason⟩)
  | .commandReturns index event err =>
    match m.commands[index]? with
    | none => none
    | some command =>
      some { m with
        session :=
          m.session.runCommand event err command.runtimeErrorResume
        commands := m.commands.eraseIdx index }
  | .pause _ _ => some m
  | .terminateExecution ctxErr =>
    if ctxErr ≠ [] then some m else some m.requestTermination
  | .terminate =>
    if m.terminations = 0 then
      none
    else
      some { m with
        session := m.session.terminate
        terminations := m.terminations - 1 }
  | .beginClose =>
    if m.session.beginClose.1 then
      some { m with
        session := m.session.beginClose.2
        closer := some .requestTermination }
    else
      some m
  | .close err =>
    match m.closer with
    | none => none
    | some pc => m.closeStep err pc
  | .subscribe handle =>
    if (m.session.watchers handle).isSome then
      none
    else
      some { m with session := m.session.subscribe handle }
  | .unsubscribe handle => some (m.watch (·.modify handle Subscriber.cancel))
  | .readEvent handle => some (m.watch (·.modify handle Subscriber.readEvent))
  | .readError handle => some (m.watch (·.modify handle Subscriber.readError))

end SessionMachine

/-! ## What a step can do -/

/-- The owner of the close operation has passed `<-d.terminalDone`. -/
def ClosePC.awaited : ClosePC → Bool
  | .requestTermination | .awaitTerminal => false
  | .closeRuntime | .releaseWatchers | .complete => true

/-- The subscription that a step of a reader acts on, and the operation. -/
def SessionAction.reader :
    SessionAction → Option (Nat × (Subscriber Event Cause → Subscriber Event Cause))
  | .unsubscribe handle => some (handle, Subscriber.cancel)
  | .readEvent handle => some (handle, Subscriber.readEvent)
  | .readError handle => some (handle, Subscriber.readError)
  | _ => none

/-- The resume request that a step makes or commits. -/
def SessionAction.slot : SessionAction → Option Nat
  | .requestResume req _ | .commitResume req _ => some req
  | _ => none

theorem SessionMachine.requests_startCommand (m : SessionMachine) (ctxErr : GoError)
    (expected : State) (command : Command) :
    (m.startCommand ctxErr expected command).requests = m.requests := by
  unfold startCommand
  split <;> rfl

variable {err ctxErr : GoError} {pc : ClosePC} {action : SessionAction} {kind : ResumeKind}
  {m next : SessionMachine}

theorem SessionMachine.requests_closeStep (taken : m.closeStep err pc = some next) :
    next.requests = m.requests := by
  revert taken
  fun_cases closeStep m err pc
  all_goals intro taken; cases taken
  all_goals rfl

variable {req : Nat}

theorem SessionMachine.requests_of_step
    (taken : m.step action = some next) (other : action.slot ≠ some req) :
    next.requests req = m.requests req := by
  have updated : ∀ {slot : Nat} {value : Option ResumeRequest}, action.slot = some slot →
      Function.update m.requests slot value req = m.requests req := by
    intro slot value isSlot
    apply Function.update_of_ne
    rintro rfl
    exact other isSlot
  revert taken
  fun_cases step m action
  all_goals intro taken
  case case16 => rw [requests_closeStep taken]
  all_goals cases taken
  case case1 => rw [requests_startCommand]
  case case3 => exact updated rfl
  case case5 =>
    rw [requests_startCommand]
    exact updated rfl
  all_goals rfl

theorem SessionMachine.pending_of_requestResume
    (taken : m.step (.requestResume req kind) = some next) :
    ∃ pending, next.requests req = some pending ∧ pending.kind = kind := by
  simp only [step] at taken
  split at taken
  · cases taken
  · cases taken
    simp

theorem SessionMachine.settled_of_commitResume
    (taken : m.step (.commitResume req ctxErr) = some next) :
    (next.requests req).isSome = false := by
  simp only [step] at taken
  split at taken
  · cases taken
  · cases taken
    rw [requests_startCommand]
    simp

/-- The effects of a step, one constructor for each kind of critical section. -/
inductive Effect (m : SessionMachine) : SessionAction → SessionMachine → Prop
  | control {closer} {action : SessionAction} {close requests}
      (awaits : ∀ pc, closer = some pc → pc.awaited = true →
        m.session.terminalDone ≠ 0 ∨
          ∃ previous, m.closer = some previous ∧ previous.awaited = true) :
      Effect m action { m with
          session := { m.session with close := close }
          requests := requests
          closer := closer }
  | begin {ctxErr : GoError} {snapshot started}
      (accepted : m.session.startCommand ctxErr .created = .ok (snapshot, started)) :
      Effect m (.start ctxErr) { m with
          session := started
          commands := m.commands ++ [⟨false, .started⟩] }
  | resume {pending} {ctxErr : GoError} {snapshot started} {req : Nat}
      (requested : m.requests req = some pending)
      (accepted : m.session.startCommand ctxErr .stopped = .ok (snapshot, started)) :
      Effect m (.commitResume req ctxErr) { m with
          session := started
          requests := Function.update m.requests req none
          commands := m.commands ++
            [⟨pending.runtimeErrorResume, .resumed m.session.reason⟩] }
  | returns {index command event} {err : GoError} (found : m.commands[index]? = some command) :
      Effect m (.commandReturns index event err) { m with
          session := m.session.runCommand event err command.runtimeErrorResume
          commands := m.commands.eraseIdx index }
  | request {closer} {action : SessionAction}
      (early : ∀ pc, closer = some pc → pc.awaited = true → m.closer = some pc) :
      Effect m action { m.requestTermination with closer := closer }
  | terminate (pending : m.terminations ≠ 0) : Effect m .terminate { m with
          session := m.session.terminate
          terminations := m.terminations - 1 }
  | subscribe {handle} (new : m.session.watchers handle = none) :
      Effect m (.subscribe handle)
        { m with session := m.session.subscribe handle }
  | reader {op handle} {action : SessionAction} (allowed : Subscriber.ReaderAction op)
      (reads : action.reader = some (handle, op)) :
      Effect m action (m.watch (·.modify handle op))
  | release {action : SessionAction} (owner : m.closer = some .releaseWatchers) :
      Effect m action { m with
          session := m.session.releaseWatchers
          closer := some .complete }

namespace Effect

variable {m next : SessionMachine}

theorem keep (m : SessionMachine) (action : SessionAction) :
    Effect m action m :=
  Effect.control fun pc known awaited => Or.inr ⟨pc, known, awaited⟩

variable {action : SessionAction}

theorem of_closeStep (owner : m.closer = some pc)
    (taken : m.closeStep err pc = some next) : Effect m action next := by
  revert taken
  fun_cases SessionMachine.closeStep m err pc
  all_goals intro taken; cases taken
  · apply Effect.request
    intro pc known awaited
    cases known
    cases awaited
  next closed =>
    exact .control fun _ _ _ => Or.inl closed
  · exact .control fun _ _ _ => Or.inr ⟨_, owner, rfl⟩
  · exact .release owner
  next closed completed =>
    obtain ⟨close, _, rfl⟩ := Session.completeClose_ok completed
    exact .control nofun

theorem of_step (taken : m.step action = some next) :
    Effect m action next := by
  have holds : ∀ pc, m.closer = some pc → pc.awaited = true →
      m.session.terminalDone ≠ 0 ∨
        ∃ previous, m.closer = some previous ∧ previous.awaited = true :=
    fun pc known awaited => Or.inr ⟨pc, known, awaited⟩
  revert taken
  fun_cases SessionMachine.step m action
  all_goals intro taken
  next ctxErr =>
    cases taken
    unfold SessionMachine.startCommand
    split
    · exact keep m _
    next accepted => exact .begin accepted
  · cases taken
  · cases taken
    exact .control holds
  · cases taken
  next req ctxErr pending requested =>
    cases taken
    unfold SessionMachine.startCommand
    split
    · exact .control holds
    next accepted => exact .resume requested accepted
  · cases taken
  next index event err command found =>
    cases taken
    exact .returns found
  · cases taken
    exact keep m _
  · cases taken
    exact keep m _
  · cases taken
    exact .request fun _ known _ => known
  · cases taken
  next pending =>
    cases taken
    exact .terminate pending
  · cases taken
    apply Effect.control
    intro pc known awaited
    cases known
    cases awaited
  · cases taken
    exact keep m _
  · cases taken
  next owner => exact of_closeStep owner taken
  · cases taken
  next handle new =>
    cases taken
    exact .subscribe (by simpa using new)
  next handle =>
    cases taken
    exact .reader .cancel rfl
  next handle =>
    cases taken
    exact .reader .readEvent rfl
  next handle =>
    cases taken
    exact .reader .readError rfl

end Effect

end Ferretd.Debug

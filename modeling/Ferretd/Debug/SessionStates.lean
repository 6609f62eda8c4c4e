import Ferretd.Debug.SessionMachine

/-!
# State changes of a debug session

Every critical section either leaves the observable part of a session alone
(`Rests`) or moves it to another state and publishes exactly that state
(`Publishes`).  The invariants of the machine only use these two facts.
-/

namespace Ferretd.Debug

open Library Library.Broadcast

/-- The changes of state a debug session can make. -/
inductive State.Moves : State → State → Prop
  | stay (state : State) : Moves state state
  | begin : Moves .created .running
  | resume : Moves .stopped .running
  | stop : Moves .running .stopped
  | complete : Moves .running .completed
  | fail : Moves .running .failed
  | terminate {state : State} : state.terminal = false → Moves state .terminated

/-- The observable part of the session is the same. -/
structure Session.Rests (before after : Session) : Prop where
  state : after.state = before.state
  snapshot : after.snapshotLocked = before.snapshotLocked
  terminalDone : after.terminalDone = before.terminalDone
  sequence : after.sequence = before.sequence
  lastEvent : after.lastEvent = before.lastEvent
  identity : after.id = before.id ∧ after.runtime = before.runtime

/-- The session has moved to another state and published it once. -/
structure Session.Publishes (before after : Session) : Prop where
  opened : before.state.terminal = false
  moves : before.state.Moves after.state
  changed : after.state ≠ before.state
  sequence : after.sequence = before.sequence + 1
  lastEvent :
    after.lastEvent = ⟨before.id, before.sequence + 1, after.state.kind, after.snapshotLocked⟩
  terminalDone :
    after.terminalDone =
      if after.state.terminal then before.terminalDone + 1 else before.terminalDone
  watchers :
    after.watchers =
      before.watchers.publish .debugWatcherLagged after.state.terminal after.lastEvent
  identity : after.id = before.id ∧ after.runtime = before.runtime

variable {expected : State} {ctxErr : GoError} {started : Session} {id : Nat}

namespace Session

variable {s : Session}

theorem rests_refl (s : Session) : s.Rests s :=
  ⟨rfl, rfl, rfl, rfl, rfl, rfl, rfl⟩

variable (moved : Session)

/-- What an assignment to the state leaves alone until it is published. -/
structure Carries (s moved : Session) : Prop where
  sequence : moved.sequence = s.sequence
  terminalDone : moved.terminalDone = s.terminalDone
  watchers : moved.watchers = s.watchers
  identity : moved.id = s.id ∧ moved.runtime = s.runtime

theorem publishes_publishLocked (opened : s.state.terminal = false)
    (moves : s.state.Moves moved.state) (changed : moved.state ≠ s.state)
    (carries : s.Carries moved) :
    s.Publishes (moved.publishLocked moved.state.kind moved.state.terminal) := by
  refine ⟨opened, moves, changed, ?_, ?_, ?_, ?_, carries.identity⟩
  · show moved.sequence + 1 = s.sequence + 1
    rw [carries.sequence]
  · show moved.nextEvent moved.state.kind = _
    unfold nextEvent
    rw [carries.identity.1, carries.sequence]
    rfl
  · show (if moved.state.terminal then moved.terminalDone + 1
      else moved.terminalDone) = _
    rw [carries.terminalDone]
    rfl
  · show moved.watchers.publish _ _ _ = _
    rw [carries.watchers]
    rfl

theorem publishes_of_running (running : s.state = .running)
    (moves : State.Moves .running moved.state) (changed : moved.state ≠ .running)
    (carries : s.Carries moved) :
    s.Publishes (moved.publishLocked moved.state.kind moved.state.terminal) := by
  have opened : s.state.terminal = false := by
    rw [running]
    rfl
  rw [← running] at moves changed
  exact publishes_publishLocked moved opened moves changed carries

variable {snapshot : SessionSnapshot}

theorem startCommand_ok (accepted : s.startCommand ctxErr expected = .ok (snapshot, started)) :
    s.terminating = false ∧ s.close.state = .idle ∧
      s.state = expected ∧
      started = { s with
          state := .running
          reason := none
          location := .zero
          hitBreakpointIDs := []
          failure := none }.publishLocked .running false := by
  unfold startCommand at accepted
  split at accepted
  · cases accepted
  split at accepted
  · cases accepted
  rename_i active
  split at accepted
  · split at accepted <;> cases accepted
  rename_i state
  cases accepted
  simp only [Bool.or_eq_true, CloseOperation.started_eq_true, not_or,
    Bool.not_eq_true, ne_eq, Classical.not_not] at active state
  exact ⟨active.1, active.2, state, rfl⟩

theorem startCommand_publishes (startable : expected = .created ∨ expected = .stopped)
    (accepted : s.startCommand ctxErr expected = .ok (snapshot, started)) :
    s.Publishes started := by
  obtain ⟨_, _, state, rfl⟩ := startCommand_ok accepted
  have moves : s.state.Moves .running := by
    rw [state]
    rcases startable with rfl | rfl
    · exact .begin
    · exact .resume
  have opened : s.state.terminal = false := by
    rw [state]
    rcases startable with rfl | rfl <;> rfl
  have changed : State.running ≠ s.state := by
    rw [state]
    rcases startable with rfl | rfl <;> simp
  exact publishes_publishLocked _ opened moves changed ⟨rfl, rfl, rfl, rfl, rfl⟩

theorem failLocked_publishes (err : GoError) (running : s.state = .running)
    (carries : s.Carries moved) : s.Publishes (moved.failLocked err) :=
  publishes_of_running { moved with
      state := .failed
      failure := moved.runtime.materializeFailure err }
    running .fail (by simp) ⟨carries.1, carries.2, carries.3, carries.4⟩

theorem stopLocked_publishes (reason : Reason) (running : s.state = .running)
    (carries : s.Carries moved) : s.Publishes (moved.stopLocked reason) :=
  publishes_of_running
    { moved with reason := some reason, failure := none, state := .stopped }
    running .stop (by simp) ⟨carries.1, carries.2, carries.3, carries.4⟩

section

variable (running : s.state = .running) (event : Option RuntimeEvent)
include running event

theorem applyRuntimeEventLocked_publishes (runtimeErrorResume : Bool) :
    s.Publishes (s.applyRuntimeEventLocked event runtimeErrorResume) := by
  have opened : s.state.terminal = false := by
    rw [running]
    rfl
  cases event with
  | none => exact failLocked_publishes s _ running ⟨rfl, rfl, rfl, rfl, rfl⟩
  | some event =>
    unfold applyRuntimeEventLocked
    dsimp only
    cases event.reason with
    | runtimeError =>
      exact publishes_of_running { s with
          location := event.location
          reason := some .runtimeError
          state := .stopped
          failure := s.runtime.materializeFailure event.error }
        running .stop (by simp) ⟨rfl, rfl, rfl, rfl, rfl⟩
    | completed =>
      exact publishes_of_running { s with
          location := event.location
          state := .completed
          output := event.output }
        running .complete (by simp) ⟨rfl, rfl, rfl, rfl, rfl⟩
    | terminated =>
      dsimp only
      split
      · exact failLocked_publishes _ _ running ⟨rfl, rfl, rfl, rfl, rfl⟩
      exact publishes_publishLocked
        { s with location := event.location, state := .terminated }
        opened (State.Moves.terminate opened) (by simp [running])
        ⟨rfl, rfl, rfl, rfl, rfl⟩
    | other => exact failLocked_publishes _ _ running ⟨rfl, rfl, rfl, rfl, rfl⟩
    | _ =>
      exact stopLocked_publishes _ _ running ⟨rfl, rfl, rfl, rfl, rfl⟩

theorem runCommand_publishes (err : GoError) (runtimeErrorResume : Bool) :
    s.Publishes (s.runCommand event err runtimeErrorResume) := by
  have opened : s.state.terminal = false := by
    rw [running]
    rfl
  unfold runCommand
  rw [if_neg (by simp [running])]
  split
  · dsimp only
    cases event with
    | none =>
      split
      · exact publishes_publishLocked { s with state := .terminated }
          opened (State.Moves.terminate opened) (by simp [running])
          ⟨rfl, rfl, rfl, rfl, rfl⟩
      · exact failLocked_publishes _ _ running ⟨rfl, rfl, rfl, rfl, rfl⟩
    | some event =>
      split
      · exact publishes_publishLocked
          { s with output := event.output, state := .terminated }
          opened (State.Moves.terminate opened) (by simp [running])
          ⟨rfl, rfl, rfl, rfl, rfl⟩
      · exact failLocked_publishes _ _ running ⟨rfl, rfl, rfl, rfl, rfl⟩
  · exact applyRuntimeEventLocked_publishes running event runtimeErrorResume

end

theorem runCommand_of_not_running (idle : s.state ≠ .running)
    (event : Option RuntimeEvent) (err : GoError) (runtimeErrorResume : Bool) :
    s.runCommand event err runtimeErrorResume = s := by
  simp [runCommand, idle]

theorem terminate_publishes (opened : s.state.terminal = false) :
    s.Publishes s.terminate := by
  unfold terminate
  rw [if_neg (by simp [opened])]
  apply publishes_publishLocked { s with
      state := .terminated
      reason := none
      location := .zero
      failure := none }
    opened (State.Moves.terminate opened) _ ⟨rfl, rfl, rfl, rfl, rfl⟩
  intro same
  have terminal : s.state.terminal = true := by
    rw [← same]
    rfl
  simp [opened] at terminal

theorem terminate_of_terminal (ended : s.state.terminal = true) :
    s.terminate = s := by
  simp [terminate, ended]

theorem rests_requestTermination (s : Session) :
    s.Rests s.requestTermination.2 := by
  unfold requestTermination
  split
  · exact rests_refl s
  · exact ⟨rfl, rfl, rfl, rfl, rfl, rfl, rfl⟩

theorem watchers_requestTermination (s : Session) :
    s.requestTermination.2.watchers = s.watchers := by
  unfold requestTermination
  split <;> rfl

end Session

variable {runtime : RuntimeView} {m next : SessionMachine} {action : SessionAction}

theorem Effect.session (effect : Effect m action next) :
    m.session.Rests next.session ∨ m.session.Publishes next.session := by
  cases effect with
  | begin accepted =>
    exact .inr (Session.startCommand_publishes (.inl rfl) accepted)
  | resume _ accepted =>
    exact .inr (Session.startCommand_publishes (.inr rfl) accepted)
  | @returns _ _ event err =>
    by_cases running : m.session.state = .running
    · exact .inr (Session.runCommand_publishes running event err _)
    left
    dsimp only
    rw [Session.runCommand_of_not_running running]
    exact Session.rests_refl _
  | request => exact .inl (Session.rests_requestTermination m.session)
  | terminate =>
    cases ended : m.session.state.terminal with
    | true =>
      left
      dsimp only
      rw [Session.terminate_of_terminal ended]
      exact Session.rests_refl _
    | false => exact .inr (Session.terminate_publishes ended)
  | _ =>
    exact .inl ⟨rfl, rfl, rfl, rfl, rfl, rfl, rfl⟩

theorem Effect.command_of_running (effect : Effect m action next)
    (paused : m.session.state ≠ .running) (running : next.session.state = .running) :
    (∃ ctxErr, action = .start ctxErr) ∨
      ∃ req ctxErr, action = .commitResume req ctxErr := by
  cases effect with
  | @begin ctxErr => exact .inl ⟨ctxErr, rfl⟩
  | @resume _ ctxErr _ _ req => exact .inr ⟨req, ctxErr, rfl⟩
  | returns =>
    dsimp only at running
    rw [Session.runCommand_of_not_running paused] at running
    exact absurd running paused
  | request =>
    exact absurd ((Session.rests_requestTermination _).state.symm.trans running) paused
  | terminate =>
    dsimp only at running
    unfold Session.terminate at running
    split at running
    · exact absurd running paused
    · cases running
  | _ => exact absurd running paused

/-! ## Outstanding results -/

/-- Which command results are outstanding, and who may end the session. -/
structure Outstanding (m : SessionMachine) : Prop where
  running : m.session.state = .running → m.commands.length = 1
  idle :
    m.session.state = .created ∨ m.session.state = .stopped → m.commands = []
  ended :
    m.session.state.terminal = true → m.session.terminating = false →
      m.commands = []
  terminating : 0 < m.terminations → m.session.terminating = true

namespace Outstanding

variable {m next : SessionMachine}

section

variable {snapshot : SessionSnapshot} {index : Nat} {command : Command}
  (outstanding : Outstanding m)
include outstanding

theorem accept (startable : expected = .created ∨ expected = .stopped)
    (accepted : m.session.startCommand ctxErr expected = .ok (snapshot, started))
    (requests : Nat → Option ResumeRequest) (command : Command) :
    Outstanding { m with
      session := started
      requests := requests
      commands := m.commands ++ [command] } := by
  obtain ⟨_, _, state, rfl⟩ := Session.startCommand_ok accepted
  have none : m.commands = [] := by
    apply outstanding.idle
    rw [state]
    exact startable
  constructor
  · intro _
    simp [none]
  · rintro (created | stopped)
    · cases created
    · cases stopped
  · nofun
  · exact outstanding.terminating

theorem congr (state : next.session.state = m.session.state) (commands : next.commands = m.commands)
    (terminating : next.session.terminating = m.session.terminating)
    (terminations : next.terminations = m.terminations) :
    Outstanding next := by
  constructor
  · rw [state, commands]
    exact outstanding.running
  · rw [state, commands]
    exact outstanding.idle
  · rw [state, commands, terminating]
    exact outstanding.ended
  · rw [terminations, terminating]
    exact outstanding.terminating

theorem requestTermination : Outstanding m.requestTermination := by
  unfold SessionMachine.requestTermination Session.requestTermination
  split
  · exact outstanding.congr rfl rfl rfl rfl
  constructor
  · exact outstanding.running
  · exact outstanding.idle
  · nofun
  · intro _
    rfl

theorem commandReturns (found : m.commands[index]? = some command)
    (event : Option RuntimeEvent) (err : GoError) :
    Outstanding { m with
      session := m.session.runCommand event err command.runtimeErrorResume
      commands := m.commands.eraseIdx index } := by
  have inRange : index < m.commands.length :=
    (List.getElem?_eq_some_iff.mp found).1
  by_cases running : m.session.state = .running
  · have publishes := Session.runCommand_publishes running event err
      command.runtimeErrorResume
    have last : m.commands.eraseIdx index = [] := by
      apply List.eq_nil_of_length_eq_zero
      rw [List.length_eraseIdx_of_lt inRange, outstanding.running running]
    constructor
    · intro still
      have changed := publishes.changed
      rw [running] at changed
      exact absurd still changed
    · exact fun _ => last
    · exact fun _ _ => last
    · intro pending
      have flagged := outstanding.terminating pending
      have kept : (m.session.runCommand event err
          command.runtimeErrorResume).terminating = m.session.terminating := by
        unfold Session.runCommand Session.applyRuntimeEventLocked Session.failLocked
          Session.stopLocked Session.publishLocked
        repeat' split
        all_goals rfl
      exact kept.trans flagged
  · rw [Session.runCommand_of_not_running running]
    constructor
    · intro now
      exact absurd now running
    · intro idle
      simp [outstanding.idle idle]
    · intro ended quiet
      simp [outstanding.ended ended quiet]
    · exact outstanding.terminating

theorem terminate (pending : m.terminations ≠ 0) : Outstanding { m with
      session := m.session.terminate
      terminations := m.terminations - 1 } := by
  have flagged := outstanding.terminating (Nat.pos_of_ne_zero pending)
  unfold Session.terminate
  split
  · refine ⟨outstanding.running, outstanding.idle, outstanding.ended, fun _ => flagged⟩
  constructor
  · nofun
  · rintro (created | stopped)
    · cases created
    · cases stopped
  · intro _ quiet
    have cleared : m.session.terminating = false := quiet
    simp [flagged] at cleared
  · exact fun _ => flagged

theorem effect (effect : Effect m action next) : Outstanding next := by
  cases effect with
  | begin accepted =>
    exact outstanding.accept (.inl rfl) accepted _ _
  | resume _ accepted =>
    exact outstanding.accept (.inr rfl) accepted _ _
  | @returns _ _ event err found =>
    exact outstanding.commandReturns found event err
  | request => exact outstanding.requestTermination.congr rfl rfl rfl rfl
  | terminate pending => exact outstanding.terminate pending
  | _ => exact outstanding.congr rfl rfl rfl rfl

end

end Outstanding

/-! ## The state machine -/

structure StateInvariant (m : SessionMachine) : Prop where
  outstanding : Outstanding m
  terminalDone :
    m.session.terminalDone =
      if m.session.state.terminal then 1 else 0
  lastEvent :
    m.session.lastEvent =
      ⟨m.session.id, m.session.sequence, m.session.state.kind,
        m.session.snapshotLocked⟩

theorem stateInvariant_init (id : Nat) (runtime : RuntimeView) :
    StateInvariant (.init id runtime) := by
  refine ⟨⟨?_, ?_, ?_, ?_⟩, rfl, rfl⟩
  · nofun
  · exact fun _ => rfl
  · exact fun _ _ => rfl
  · intro pending
    exact absurd pending (Nat.lt_irrefl 0)

theorem StateInvariant.step (invariant : StateInvariant m)
    (taken : m.step action = some next) : StateInvariant next := by
  have effect := Effect.of_step taken
  refine ⟨invariant.outstanding.effect effect, ?_, ?_⟩
  · rcases effect.session with rests | publishes
    · rw [rests.terminalDone, rests.state]
      exact invariant.terminalDone
    have notDone := invariant.terminalDone
    simp only [publishes.opened] at notDone
    rw [publishes.terminalDone, notDone]
    simp
  · rcases effect.session with rests | publishes
    · rw [rests.lastEvent, rests.identity.1, rests.sequence, rests.state,
        rests.snapshot]
      exact invariant.lastEvent
    · rw [publishes.lastEvent, publishes.identity.1, publishes.sequence]

theorem stateInvariant_run {allowed : SessionMachine → SessionAction → Prop}
    (run : Run SessionMachine.step allowed (.init id runtime) m) :
    StateInvariant m :=
  run.invariant (stateInvariant_init id runtime)
    fun _ _ _ invariant _ taken => invariant.step taken

/-- The discipline of the state machine, seen from one reachable state. -/
structure Disciplined (m : SessionMachine) : Prop where
  moves :
    ∀ action next, m.step action = some next →
      m.session.state.Moves next.session.state
  terminalStays :
    m.session.state.terminal = true →
      ∀ action next, m.step action = some next →
        next.session.snapshotLocked = m.session.snapshotLocked ∧
          next.session.lastEvent = m.session.lastEvent
  terminalDone :
    m.session.terminalDone =
      if m.session.state.terminal then 1 else 0
  oneResult : m.session.state = .running → m.commands.length = 1
  noResult :
    m.session.state = .created ∨ m.session.state = .stopped → m.commands = []
  lateResult :
    m.session.state.terminal = true →
      ∀ index event err next,
        m.step (.commandReturns index event err) = some next →
          next.session = m.session
  publishes :
    ∀ action next, m.step action = some next →
      next.session.state = m.session.state ∧
          next.session.sequence = m.session.sequence ∧
          next.session.lastEvent = m.session.lastEvent ∨
        next.session.state ≠ m.session.state ∧
          next.session.sequence = m.session.sequence + 1 ∧
          next.session.lastEvent =
            ⟨m.session.id, m.session.sequence + 1,
              next.session.state.kind, next.session.snapshotLocked⟩ ∧
          next.session.watchers = m.session.watchers.publish .debugWatcherLagged
            next.session.state.terminal next.session.lastEvent

/-- Every interleaving of commands, their results, termination, close and watching
keeps the session's state machine. -/
theorem session_disciplined (reached : Reaches SessionMachine.step (.init id runtime) m) :
    Disciplined m := by
  have invariant := stateInvariant_run reached
  refine ⟨?_, ?_, invariant.terminalDone, invariant.outstanding.running,
    invariant.outstanding.idle, ?_, ?_⟩
  · intro action next taken
    rcases (Effect.of_step taken).session with rests | publishes
    · rw [rests.state]
      exact .stay _
    · exact publishes.moves
  · intro ended action next taken
    rcases (Effect.of_step taken).session with rests | publishes
    · exact ⟨rests.snapshot, rests.lastEvent⟩
    · have opened := publishes.opened
      simp [ended] at opened
  · intro ended index event err next taken
    have idle : m.session.state ≠ .running := by
      intro running
      simp [running, State.terminal] at ended
    simp only [SessionMachine.step] at taken
    split at taken
    · cases taken
    · cases taken
      exact Session.runCommand_of_not_running idle event err _
  · intro action next taken
    rcases (Effect.of_step taken).session with rests | publishes
    · exact Or.inl ⟨rests.state, rests.sequence, rests.lastEvent⟩
    · exact Or.inr ⟨publishes.changed, publishes.sequence, publishes.lastEvent,
        publishes.watchers⟩

def sampleRuntime : RuntimeView where
  ref := 3
  sessionID := 1
  input := ⟨[], ⟨"application/json", ""⟩⟩
  materialize := fun _ => ⟨"failed", []⟩

/-- A session that stops on entry, is resumed and terminated while it runs; the
result of the interrupted command arrives last. -/
def terminatedSchedule : List SessionAction :=
  [.start [], .commandReturns 0 (some ⟨.entry, ⟨"", ⟨1, 1⟩⟩, [], none, []⟩) [],
    .requestResume 0 .continueExecution, .commitResume 0 [], .terminateExecution [],
    .terminate, .commandReturns 0 none [.contextCanceled]]

theorem session_disciplined_terminated :
    ∃ m,
      Reaches SessionMachine.step (.init 0 sampleRuntime) m ∧
        m.session.state = .terminated ∧ Disciplined m := by
  have passed :
      (execute SessionMachine.step (.init 0 sampleRuntime) terminatedSchedule).map
        (fun m => decide (m.session.state = .terminated)) =
      some true := by
    decide
  obtain ⟨m, reached, terminated⟩ := exists_reaches_of_test passed
  exact ⟨m, reached, of_decide_eq_true terminated, session_disciplined reached⟩

end Ferretd.Debug

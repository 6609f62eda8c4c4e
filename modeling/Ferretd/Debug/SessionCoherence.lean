import Ferretd.Debug.SessionStates

/-!
# Coherent debug snapshots

The optional parts of a snapshot belong to particular states.  `startCommand` clears them
before a command runs; `terminate` clears only some of them.
-/

namespace Ferretd.Debug

open Library Library.Broadcast

structure SessionSnapshot.Coherent (snapshot : SessionSnapshot) : Prop where
  hits :
    snapshot.hitBreakpointIDs ≠ [] →
      snapshot.state = .stopped ∧ snapshot.reason = some .breakpoint
  reason : snapshot.reason ≠ none ↔ snapshot.state = .stopped
  failure :
    snapshot.failure ≠ none →
      snapshot.state = .failed ∨ snapshot.state = .stopped ∧ snapshot.reason = some .runtimeError
  failed : snapshot.state = .failed → snapshot.failure ≠ none
  output : snapshot.output ≠ none → snapshot.state.terminal = true

theorem RuntimeView.materializeFailure_ne_none (runtime : RuntimeView)
    {err : GoError} (present : err ≠ []) : runtime.materializeFailure err ≠ none := by
  simp [RuntimeView.materializeFailure, present]

namespace Session

variable {s : Session}

/-- The optional parts of a session that a command runs in. -/
structure Clear (s : Session) : Prop where
  reason : s.reason = none
  hits : s.hitBreakpointIDs = []
  failure : s.failure = none
  output : s.output = none

section

variable {expected : State} {ctxErr : GoError} {snapshot : SessionSnapshot} {started : Session}
  (coherent : s.snapshotLocked.Coherent)
include coherent

theorem clear_of_running (running : s.state = .running) : s.Clear := by
  constructor
  · by_contra present
    have stopped : s.state = .stopped := coherent.reason.mp present
    simp [running] at stopped
  · by_contra present
    have stopped : s.state = .stopped := (coherent.hits present).1
    simp [running] at stopped
  · by_contra present
    rcases coherent.failure present with failed | stopped
    · have state : s.state = .failed := failed
      simp [running] at state
    · have state : s.state = .stopped := stopped.1
      simp [running] at state
  · by_contra present
    have ended : s.state.terminal = true := coherent.output present
    simp [running, State.terminal] at ended

theorem output_of_opened (opened : s.state.terminal = false) : s.output = none := by
  by_contra present
  have ended : s.state.terminal = true := coherent.output present
  simp [opened] at ended

theorem startCommand_coherent (startable : expected = .created ∨ expected = .stopped)
    (accepted : s.startCommand ctxErr expected = .ok (snapshot, started)) :
    started.snapshotLocked.Coherent := by
  have opened := (startCommand_publishes startable accepted).opened
  obtain ⟨_, _, _, rfl⟩ := startCommand_ok accepted
  have output : s.output = none := output_of_opened coherent opened
  constructor <;> simp [publishLocked, snapshotLocked, output]

end

variable (moved : Session)

theorem failLocked_coherent {err : GoError} (present : err ≠ [])
    (reason : moved.reason = none) (hits : moved.hitBreakpointIDs = []) :
    (moved.failLocked err).snapshotLocked.Coherent := by
  have failure := moved.runtime.materializeFailure_ne_none present
  constructor <;>
    simp [failLocked, publishLocked, snapshotLocked, reason, hits, failure, State.terminal]

theorem stopLocked_coherent (reason : Reason)
    (hits : moved.hitBreakpointIDs ≠ [] → reason = .breakpoint) (output : moved.output = none) :
    (moved.stopLocked reason).snapshotLocked.Coherent := by
  constructor <;> simp [stopLocked, publishLocked, snapshotLocked, output]
  exact hits

theorem terminated_coherent (reason : moved.reason = none)
    (hits : moved.hitBreakpointIDs = []) (failure : moved.failure = none) :
    ({ moved with state := .terminated }.publishLocked
      .terminated true).snapshotLocked.Coherent := by
  constructor <;>
    simp [publishLocked, snapshotLocked, reason, hits, failure, State.terminal]

theorem applyRuntimeEventLocked_coherent (clear : s.Clear)
    (event : Option RuntimeEvent) (runtimeErrorResume : Bool) :
    (s.applyRuntimeEventLocked event runtimeErrorResume).snapshotLocked.Coherent := by
  cases event with
  | none =>
    exact failLocked_coherent s (List.cons_ne_nil _ _) clear.reason clear.hits
  | some event =>
    simp only [applyRuntimeEventLocked]
    cases event.reason with
    | breakpoint => exact stopLocked_coherent _ _ (fun _ => rfl) clear.output
    | runtimeError =>
      constructor <;>
        simp [publishLocked, snapshotLocked, clear.hits, clear.output]
    | completed =>
      constructor <;>
        simp [publishLocked, snapshotLocked, clear.reason, clear.hits,
          clear.failure, State.terminal]
    | terminated =>
      dsimp only
      split
      next classified =>
        exact failLocked_coherent _ classified.2.1 clear.reason clear.hits
      · exact terminated_coherent { s with location := event.location }
          clear.reason clear.hits clear.failure
    | other => exact failLocked_coherent _ (List.cons_ne_nil _ _) clear.reason clear.hits
    | _ =>
      exact stopLocked_coherent _ _ (absurd clear.hits) clear.output

theorem runCommand_coherent (coherent : s.snapshotLocked.Coherent)
    (event : Option RuntimeEvent) (err : GoError) (runtimeErrorResume : Bool) :
    (s.runCommand event err runtimeErrorResume).snapshotLocked.Coherent := by
  by_cases running : s.state = .running
  · have clear := clear_of_running coherent running
    simp only [runCommand, running, ne_eq, not_true_eq_false, if_false]
    split
    next present =>
      cases event with
      | none | some =>
        split
        · exact terminated_coherent _ clear.reason clear.hits clear.failure
        · exact failLocked_coherent _ present clear.reason clear.hits
    · exact applyRuntimeEventLocked_coherent clear event runtimeErrorResume
  · rw [runCommand_of_not_running running]
    exact coherent

theorem terminate_coherent_iff (opened : s.state.terminal = false) :
    s.terminate.snapshotLocked.Coherent ↔ s.hitBreakpointIDs = [] := by
  have terminated : s.terminate = { s with
          state := .terminated
          reason := none
          location := .zero
          failure := none }.publishLocked .terminated true := by
    simp [terminate, opened]
  rw [terminated]
  constructor
  · intro coherent
    by_contra present
    have stopped : State.terminated = State.stopped := (coherent.hits present).1
    cases stopped
  · intro hits
    exact terminated_coherent
      { s with reason := none, location := .zero, failure := none } rfl hits rfl

end Session

/-- The critical section of `terminate`. -/
def SessionAction.terminates : SessionAction → Bool
  | .terminate => true
  | _ => false

/-- A step that terminates an open session finds no breakpoint IDs in it. -/
def HitsCleared (m : SessionMachine) (action : SessionAction) : Prop :=
  action.terminates = true → m.session.state.terminal = false →
    m.session.hitBreakpointIDs = []

instance (m : SessionMachine) (action : SessionAction) :
    Decidable (HitsCleared m action) :=
  inferInstanceAs (Decidable (_ → _ → _))

theorem Effect.coherent {m next : SessionMachine} {action : SessionAction}
    (effect : Effect m action next) (coherent : m.session.snapshotLocked.Coherent)
    (cleared : HitsCleared m action) :
    next.session.snapshotLocked.Coherent := by
  cases effect with
  | begin accepted =>
    exact Session.startCommand_coherent coherent (Or.inl rfl) accepted
  | resume _ accepted =>
    exact Session.startCommand_coherent coherent (Or.inr rfl) accepted
  | @returns _ _ event err => exact Session.runCommand_coherent coherent event err _
  | terminate =>
    cases ended : m.session.state.terminal with
    | true => simpa only [Session.terminate_of_terminal ended] using coherent
    | false => exact (Session.terminate_coherent_iff ended).mpr (cleared rfl ended)
  | request =>
    have rests := Session.rests_requestTermination m.session
    simpa only [SessionMachine.requestTermination, rests.snapshot] using coherent
  | _ => exact coherent

theorem coherent_init (id : Nat) (runtime : RuntimeView) :
    (SessionMachine.init id runtime).session.snapshotLocked.Coherent := by
  constructor <;>
    simp [SessionMachine.init, Session.newSession, Session.publishLocked, Session.snapshotLocked]

/-- Snapshots and published events are coherent in every run whose terminations find
no breakpoint IDs, and the first termination that finds some breaks coherence. -/
theorem session_coherent {id : Nat} {runtime : RuntimeView} {m : SessionMachine}
    (run : Run SessionMachine.step HitsCleared (.init id runtime) m) :
    m.session.snapshotLocked.Coherent ∧
      m.session.lastEvent.snapshot.Coherent ∧
      ∀ action next, m.step action = some next →
        (next.session.snapshotLocked.Coherent ↔ HitsCleared m action) := by
  have coherent : m.session.snapshotLocked.Coherent :=
    run.invariant (coherent_init id runtime) fun _ _ _ held cleared taken =>
      (Effect.of_step taken).coherent held cleared
  have published := (stateInvariant_run run).lastEvent
  refine ⟨coherent, by simpa only [published] using coherent, ?_⟩
  intro action next taken
  refine ⟨?_, (Effect.of_step taken).coherent coherent⟩
  intro coherentNext terminates opened
  cases action with
  | terminate =>
    simp only [SessionMachine.step] at taken
    split at taken
    · cases taken
    · cases taken
      exact (Session.terminate_coherent_iff opened).mp coherentNext
  | _ => cases terminates

def breakpointSchedule : List SessionAction :=
  [.start [], .commandReturns 0 (some ⟨.breakpoint, ⟨"", ⟨7, 1⟩⟩, [4], none, []⟩) []]

theorem session_coherent_breakpoint :
    ∃ m,
      Run SessionMachine.step HitsCleared (.init 0 sampleRuntime) m ∧
        m.session.hitBreakpointIDs = [4] ∧
        m.session.snapshotLocked.Coherent := by
  have passed :
      (execute (guarded SessionMachine.step HitsCleared) (.init 0 sampleRuntime)
        breakpointSchedule).map
        (fun m => decide (m.session.hitBreakpointIDs = [4])) =
      some true := by
    decide
  obtain ⟨m, reached, hits⟩ := exists_reaches_of_test passed
  have run := run_of_guarded reached
  exact ⟨m, run, of_decide_eq_true hits, (session_coherent run).1⟩

/-- Terminating the session stopped at breakpoint 4 publishes a terminated snapshot
that still names the breakpoint. -/
theorem terminated_with_breakpoints :
    ∃ m,
      Reaches SessionMachine.step (.init 0 sampleRuntime) m ∧
        m.session.state = .terminated ∧
        m.session.lastEvent.snapshot.hitBreakpointIDs = [4] ∧
        ¬m.session.lastEvent.snapshot.Coherent := by
  have passed :
      (execute SessionMachine.step (.init 0 sampleRuntime)
        (breakpointSchedule ++ [.terminateExecution [], .terminate])).map
        (fun m =>
          decide (m.session.state = .terminated ∧
            m.session.lastEvent.snapshot.state = .terminated ∧
            m.session.lastEvent.snapshot.hitBreakpointIDs = [4])) =
      some true := by
    decide
  obtain ⟨m, reached, observed⟩ := exists_reaches_of_test passed
  obtain ⟨terminated, published, hits⟩ := of_decide_eq_true observed
  refine ⟨m, reached, terminated, hits, ?_⟩
  intro coherent
  have stopped := (coherent.hits (by simp [hits])).1
  simp [published] at stopped

end Ferretd.Debug

import Ferretd.Debug.SessionWatch

/-!
# Independence of the subscribers

Forgetting one subscriber commutes with every critical section of the session.
-/

namespace Ferretd.Debug

open Library Library.Broadcast

namespace Session

def forget (s : Session) (handle : Nat) : Session :=
  { s with watchers := s.watchers.erase handle }

variable {other : Nat} (s : Session) (handle : Nat)

theorem publishLocked_forget (kind : EventKind) (terminal : Bool) :
    (s.publishLocked kind terminal).forget handle =
      (s.forget handle).publishLocked kind terminal := by
  simp only [forget, publishLocked, Hub.erase_publish]
  rfl

theorem failLocked_forget (err : GoError) :
    (s.failLocked err).forget handle = (s.forget handle).failLocked err :=
  publishLocked_forget _ handle _ _

theorem stopLocked_forget (reason : Reason) :
    (s.stopLocked reason).forget handle = (s.forget handle).stopLocked reason :=
  publishLocked_forget _ handle _ _

variable (event : Option RuntimeEvent)

theorem applyRuntimeEventLocked_forget (runtimeErrorResume : Bool) :
    (s.applyRuntimeEventLocked event runtimeErrorResume).forget handle =
      (s.forget handle).applyRuntimeEventLocked event runtimeErrorResume := by
  cases event with
  | none => exact failLocked_forget s handle _
  | some event =>
    simp only [applyRuntimeEventLocked]
    cases event.reason with
    | runtimeError | completed => exact publishLocked_forget _ handle _ _
    | terminated =>
      have terminating : (s.forget handle).terminating = s.terminating :=
        rfl
      dsimp only
      rw [terminating]
      split
      · exact failLocked_forget _ handle _
      · exact publishLocked_forget _ handle _ _
    | other => exact failLocked_forget _ handle _
    | _ => exact stopLocked_forget _ handle _

theorem runCommand_forget (err : GoError) (runtimeErrorResume : Bool) :
    (s.runCommand event err runtimeErrorResume).forget handle =
      (s.forget handle).runCommand event err runtimeErrorResume := by
  have state : (s.forget handle).state = s.state := rfl
  have terminating : (s.forget handle).terminating = s.terminating := rfl
  simp only [runCommand]
  rw [state, terminating]
  split
  · rfl
  split
  · cases event with
    | none | some =>
      split
      · exact publishLocked_forget _ handle _ _
      · exact failLocked_forget _ handle _
  · exact applyRuntimeEventLocked_forget s handle event runtimeErrorResume

theorem startCommand_forget (ctxErr : GoError) (expected : State) :
    (s.forget handle).startCommand ctxErr expected =
      (s.startCommand ctxErr expected).map fun accepted =>
        (accepted.1, accepted.2.forget handle) := by
  have state : (s.forget handle).state = s.state := rfl
  have terminating : (s.forget handle).terminating = s.terminating := rfl
  have close : (s.forget handle).close = s.close := rfl
  simp only [startCommand]
  rw [state, terminating, close]
  split
  · rfl
  split
  · rfl
  split
  · split <;> rfl
  have published := publishLocked_forget { s with
      state := .running
      reason := none
      location := .zero
      hitBreakpointIDs := []
      failure := none }
    handle .running false
  simp only [Except.map, published]
  rfl

theorem terminate_forget :
    s.terminate.forget handle = (s.forget handle).terminate := by
  have state : (s.forget handle).state = s.state := rfl
  simp only [terminate]
  rw [state]
  split
  · rfl
  · exact publishLocked_forget _ handle _ _

theorem requestTermination_forget :
    (s.forget handle).requestTermination =
      (s.requestTermination.1, s.requestTermination.2.forget handle) := by
  have state : (s.forget handle).state = s.state := rfl
  have terminating : (s.forget handle).terminating = s.terminating := rfl
  simp only [requestTermination]
  rw [state, terminating]
  split <;> rfl

theorem subscribe_forget (different : other ≠ handle) :
    (s.subscribe other).forget handle = (s.forget handle).subscribe other := by
  simp only [forget, subscribe, Hub.erase_insert_of_ne _ different]
  rfl

end Session

/-- The actions of the reader that holds a handle. -/
def SessionAction.byReader (handle : Nat) : SessionAction → Bool
  | .subscribe other | .unsubscribe other | .readEvent other | .readError other =>
    other == handle
  | _ => false

namespace SessionMachine

open SessionAction

def forget (m : SessionMachine) (handle : Nat) : SessionMachine :=
  { m with session := m.session.forget handle }

variable {action : SessionAction} {next source target : SessionMachine}
  {schedule : List SessionAction} (m : SessionMachine) (handle : Nat)

theorem startCommand_forget (ctxErr : GoError) (expected : State) (command : Command) :
    (m.forget handle).startCommand ctxErr expected command =
      (m.startCommand ctxErr expected command).forget handle := by
  have accepted := Session.startCommand_forget m.session handle ctxErr expected
  have same : (m.forget handle).session = m.session.forget handle := rfl
  simp only [startCommand]
  rw [same, accepted]
  cases m.session.startCommand ctxErr expected <;> rfl

theorem requestTermination_forget :
    (m.forget handle).requestTermination = m.requestTermination.forget handle := by
  have requested := Session.requestTermination_forget m.session handle
  simp [requestTermination, forget, requested]

theorem closeStep_forget (err : GoError) (pc : ClosePC) :
    (m.forget handle).closeStep err pc = (m.closeStep err pc).map (·.forget handle) := by
  cases pc with
  | requestTermination =>
    have requested := requestTermination_forget m handle
    simp only [closeStep, requested]
    rfl
  | awaitTerminal =>
    simp only [closeStep]
    show (if m.session.terminalDone = 0 then none else _) = _
    split <;> rfl
  | closeRuntime => rfl
  | releaseWatchers =>
    simp [closeStep, Option.map_some, forget, Session.forget, Session.releaseWatchers,
      Hub.erase_releaseAll]
  | complete =>
    cases finished : m.session.close.finish err <;>
      simp [closeStep, Session.completeClose, forget, Session.forget, finished, Except.map]

theorem step_forget (foreign : action.byReader handle = false) (taken : m.step action = some next) :
    (m.forget handle).step action = some (next.forget handle) := by
  cases action with
  | start =>
    cases taken
    simp [step, startCommand_forget]
  | requestResume req =>
    cases found : m.requests req with
    | some => simp [step, found] at taken
    | none =>
      have foundForget : (m.forget handle).requests req = none := found
      simp only [step, found] at taken
      cases taken
      simp only [step, foundForget]
      rfl
  | commitResume req =>
    cases found : m.requests req with
    | none => simp [step, found] at taken
    | some pending =>
      have foundForget : (m.forget handle).requests req = some pending := found
      simp only [step, found] at taken
      cases taken
      simp only [step, foundForget]
      exact congrArg some (startCommand_forget
        { m with requests := Function.update m.requests req none } handle _ _ _)
  | commandReturns index =>
    cases found : m.commands[index]? with
    | none => simp [step, found] at taken
    | some =>
      simp only [step, found] at taken
      cases taken
      simp [step, forget, found, Session.runCommand_forget]
  | pause =>
    cases taken
    rfl
  | terminateExecution =>
    simp only [step] at taken ⊢
    split at taken
    next cancelled =>
      cases taken
      rw [if_pos cancelled]
    next live =>
      cases taken
      rw [if_neg live, requestTermination_forget]
  | terminate =>
    by_cases none : m.terminations = 0
    · simp [step, none] at taken
    · simp only [step, none, if_false] at taken
      cases taken
      simp only [step, forget, none, if_false, Session.terminate_forget]
  | beginClose =>
    cases begun : m.session.beginClose.1 with
    | true =>
      have begunForget : (m.forget handle).session.beginClose.1 = true := begun
      simp only [step, begun, if_true] at taken
      cases taken
      simp only [step, begunForget, if_true]
      rfl
    | false =>
      have begunForget : (m.forget handle).session.beginClose.1 = false :=
        begun
      simp only [step, begun] at taken
      cases taken
      simp [step, begunForget]
  | close err =>
    cases owner : m.closer with
    | none => simp [step, owner] at taken
    | some pc =>
      have ownerForget : (m.forget handle).closer = some pc := owner
      have closed := closeStep_forget m handle err pc
      simp only [step, owner] at taken
      rw [taken, Option.map_some] at closed
      simpa only [step, ownerForget] using closed
  | subscribe other =>
    have different : other ≠ handle := by simpa [byReader] using foreign
    have same : (m.forget handle).session.watchers other =
        m.session.watchers other :=
      Hub.erase_apply_of_ne m.session.watchers different
    simp only [step] at taken ⊢
    split at taken
    · cases taken
    rename_i new
    cases taken
    rw [same, if_neg new]
    simp [forget, Session.subscribe_forget m.session handle different]
  | unsubscribe other | readEvent other | readError other =>
    have different : other ≠ handle := by simpa [byReader] using foreign
    cases taken
    simp [step, watch, forget, Session.forget, Hub.erase_modify_of_ne _ different]

theorem forget_step_reader (own : action.byReader handle = true)
    (taken : m.step action = some next) :
    next.forget handle = m.forget handle := by
  cases action with
  | subscribe other =>
    have same : other = handle := by simpa [byReader] using own
    subst same
    simp only [step] at taken
    split at taken
    · cases taken
    · cases taken
      simp [forget, Session.forget, Session.subscribe, Hub.erase_insert_self]
  | unsubscribe other | readEvent other | readError other =>
    have same : other = handle := by simpa [byReader] using own
    subst same
    cases taken
    simp [watch, forget, Session.forget, Hub.erase_modify_self]
  | _ => cases own

theorem execute_forget (executed : execute step source schedule = some target) :
    execute step (source.forget handle)
        (schedule.filter fun action => !action.byReader handle) =
      some (target.forget handle) := by
  induction schedule generalizing source with
  | nil =>
    cases executed
    rfl
  | cons action _ ih =>
    obtain ⟨next, taken, executedRest⟩ := Option.bind_eq_some_iff.mp executed
    have executedForget := ih executedRest
    cases own : action.byReader handle with
    | true =>
      rw [forget_step_reader source handle own taken] at executedForget
      simpa [own] using executedForget
    | false =>
      have takenForget := step_forget source handle own taken
      simpa [own, execute, takenForget] using executedForget

end SessionMachine

/-- In every schedule every subscriber gets its events without gap and is told when
it lags, and the rest of the machine does not depend on it. -/
theorem debug_watch_delivery {id : Nat} {runtime : RuntimeView}
    {m : SessionMachine} {schedule : List SessionAction}
    (executed : execute SessionMachine.step (.init id runtime) schedule = some m) (handle : Nat) :
    (∀ watcher, m.session.watchers handle = some watcher →
        Delivery m handle watcher) ∧
      execute SessionMachine.step (.init id runtime)
          (schedule.filter fun action => !action.byReader handle) =
        some (m.forget handle) := by
  constructor
  · intro watcher found
    exact (watchInvariant_reaches (reaches_of_execute executed)).delivery found
  have forgotten : (SessionMachine.init id runtime).forget handle = .init id runtime := by
    simp [SessionMachine.forget, Session.forget, SessionMachine.init,
      Session.newSession, Session.publishLocked, Hub.erase, Hub.publish]
  have executedForget := SessionMachine.execute_forget handle executed
  rw [forgotten] at executedForget
  exact executedForget

/-- One step over a line: the command is accepted and stops again. -/
def stepSchedule : List SessionAction :=
  [.requestResume 0 .stepOver, .commitResume 0 [],
    .commandReturns 0 (some ⟨.step, ⟨"", ⟨2, 1⟩⟩, [], none, []⟩) []]

/-- Nine publications that a subscriber does not read. -/
def lagSchedule : List SessionAction :=
  [.subscribe 0, .start [],
      .commandReturns 0 (some ⟨.entry, ⟨"", ⟨1, 1⟩⟩, [], none, []⟩) []] ++
    stepSchedule ++ stepSchedule ++ stepSchedule ++ stepSchedule

theorem debug_watch_delivery_lagged :
    ∃ m watcher,
      execute SessionMachine.step (.init 0 sampleRuntime) lagSchedule = some m ∧
        m.session.watchers 0 = some watcher ∧
        watcher.reported = [.debugWatcherLagged] ∧
        Delivery m 0 watcher := by
  have observed :
      ((execute SessionMachine.step (.init 0 sampleRuntime) lagSchedule).bind
        fun m => (m.session.watchers 0).map
          fun watcher => watcher.reported) = some [.debugWatcherLagged] := by
    decide
  obtain ⟨m, executed, found⟩ := Option.bind_eq_some_iff.mp observed
  obtain ⟨watcher, foundWatcher, reported⟩ := Option.map_eq_some_iff.mp found
  exact ⟨m, watcher, executed, foundWatcher, reported,
    (debug_watch_delivery executed 0).1 watcher foundWatcher⟩

/-- A subscriber of a session that has ended: its channel is closed, nothing was
placed in it, it did not cancel, and no error is available. -/
theorem late_subscriber_without_error :
    ∃ m watcher,
      Reaches SessionMachine.step (.init 0 sampleRuntime) m ∧
        m.session.watchers 0 = some watcher ∧
        watcher.events.closes = 1 ∧ watcher.cancelled = false ∧
        watcher.placed.length = 0 ∧ watcher.reported = [] := by
  have observed :
      ((execute SessionMachine.step (.init 0 sampleRuntime)
        [.terminateExecution [], .terminate, .subscribe 0]).bind
        fun m => (m.session.watchers 0).map fun watcher =>
          decide (watcher.events.closes = 1 ∧ watcher.cancelled = false ∧
            watcher.placed.length = 0 ∧ watcher.reported = [])) = some true := by
    decide
  obtain ⟨m, executed, found⟩ := Option.bind_eq_some_iff.mp observed
  obtain ⟨watcher, foundWatcher, facts⟩ := Option.map_eq_some_iff.mp found
  exact ⟨m, watcher, reaches_of_execute executed, foundWatcher, of_decide_eq_true facts⟩

end Ferretd.Debug

import Ferretd.Debug.SessionStates

/-!
# Classification of resumed commands

`resumeCommand` reads the stop it is about to leave in one critical section and commits in
another; between the two the session can stop again for another reason.
-/

namespace Ferretd.Debug

open Library Library.Broadcast List

section

variable (m : SessionMachine)

/-- What a command that returned a terminated event with an error, without a request
to terminate, makes of the session. -/
def ResumeClassified : Prop :=
  ∀ index command reason event next,
    m.commands[index]? = some command →
    command.origin = .resumed reason →
    event.reason = .terminated →
    event.error ≠ [] →
    m.session.terminating = false →
    m.step (.commandReturns index (some event) []) = some next →
      (next.session.state = .failed ∧
          next.session.failure = some (m.session.runtime.materialize event.error) ↔
        reason = some .runtimeError)

/-- Every outstanding command carries the classification of the stop it left. -/
def Classified : Prop :=
  ∀ command ∈ m.commands, ∀ reason, command.origin = .resumed reason →
    (command.runtimeErrorResume = true ↔ reason = some .runtimeError)

def SessionAction.committed : SessionAction → Option Nat
  | .commitResume req _ => some req
  | _ => none

/-- A request that commits on a stopped session read a runtime error exactly when
the session is stopped on one. -/
def StopUnchanged (action : SessionAction) : Prop :=
  ∀ req ∈ action.committed, ∀ pending ∈ m.requests req,
    m.session.state = .stopped →
      (pending.runtimeErrorResume = true ↔ m.session.reason = some .runtimeError)

end

instance (m : SessionMachine) (action : SessionAction) :
    Decidable (StopUnchanged m action) :=
  inferInstanceAs (Decidable (∀ req ∈ action.committed, _))

variable {m next : SessionMachine} {action : SessionAction} {event : RuntimeEvent}
  {command : Command}

theorem Effect.classified (effect : Effect m action next)
    (classified : Classified m) (unchanged : StopUnchanged m action) : Classified next := by
  cases effect with
  | begin =>
    intro command member reason origin
    rcases mem_append.mp member with before | fresh
    · exact classified command before reason origin
    · cases mem_singleton.mp fresh
      cases origin
  | @resume pending _ _ _ req requested accepted =>
    obtain ⟨_, _, stopped, _⟩ := Session.startCommand_ok accepted
    intro command member reason origin
    rcases mem_append.mp member with before | fresh
    · exact classified command before reason origin
    · cases mem_singleton.mp fresh
      cases origin
      exact unchanged req rfl pending requested stopped
  | @returns _ command =>
    intro command member
    exact classified command (mem_of_mem_eraseIdx member)
  | _ => exact classified

theorem Session.runCommand_terminated {s : Session} (running : s.state = .running)
    (terminated : event.reason = .terminated) (present : event.error ≠ [])
    (unasked : s.terminating = false) (runtimeErrorResume : Bool) :
    ((s.runCommand (some event) [] runtimeErrorResume).state = .failed ∧
        (s.runCommand (some event) [] runtimeErrorResume).failure =
          some (s.runtime.materialize event.error)) ↔
      runtimeErrorResume = true := by
  cases runtimeErrorResume with
  | true =>
    simp [runCommand, running, applyRuntimeEventLocked, terminated, present,
      unasked, failLocked, publishLocked, RuntimeView.materializeFailure]
  | false =>
    simp [runCommand, running, applyRuntimeEventLocked, terminated, publishLocked]

theorem Outstanding.running_of_command (outstanding : Outstanding m) {index : Nat}
    (found : m.commands[index]? = some command)
    (unasked : m.session.terminating = false) :
    m.session.state = .running := by
  have present : m.commands ≠ [] := by
    intro none
    simp [none] at found
  cases state : m.session.state with
  | running => rfl
  | created => exact absurd (outstanding.idle (Or.inl state)) present
  | stopped => exact absurd (outstanding.idle (Or.inr state)) present
  | _ =>
    exact absurd (outstanding.ended (by rw [state]; rfl) unasked) present

/-- In every run whose resume requests commit on the kind of stop they read, a
resumed command is classified by the stop it left. -/
theorem resume_classified {id : Nat} {runtime : RuntimeView}
    (run : Run SessionMachine.step StopUnchanged (.init id runtime) m) :
    ResumeClassified m := by
  have initially : Classified (.init id runtime) := nofun
  have classified : Classified m :=
    run.invariant initially fun _ _ _ held unchanged taken =>
      (Effect.of_step taken).classified held unchanged
  intro index command reason event next found origin terminated present unasked taken
  have running := (stateInvariant_run run).outstanding.running_of_command found unasked
  simp only [SessionMachine.step, found] at taken
  cases taken
  dsimp only
  rw [Session.runCommand_terminated running terminated present unasked]
  exact classified command (mem_of_getElem? found) reason origin

/-- A session that stops on entry and is asked to continue. -/
def entrySchedule : List SessionAction :=
  [.start [], .commandReturns 0 (some ⟨.entry, ⟨"", ⟨1, 1⟩⟩, [], none, []⟩) [],
    .requestResume 0 .continueExecution]

/-- A second request, which steps over to a runtime error. -/
def overtakingSchedule : List SessionAction :=
  [.requestResume 1 .stepOver, .commitResume 1 [],
    .commandReturns 0
      (some ⟨.runtimeError, ⟨"", ⟨2, 1⟩⟩, [], none, [.message "division by zero"]⟩) []]

/-- The event of a program that ends with an error. -/
def abortedEvent : RuntimeEvent :=
  ⟨.terminated, ⟨"", ⟨2, 1⟩⟩, [], none, [.message "division by zero"]⟩

/-- A command that leaves the entry, and one that leaves a runtime error. -/
theorem resume_classified_entry :
    (∃ m, Run SessionMachine.step StopUnchanged (.init 0 sampleRuntime) m ∧
      m.commands = [⟨false, .resumed (some .entry)⟩] ∧ ResumeClassified m) ∧
    ∃ m, Run SessionMachine.step StopUnchanged (.init 0 sampleRuntime) m ∧
      m.commands = [⟨true, .resumed (some .runtimeError)⟩] ∧ ResumeClassified m := by
  have leaves : ∀ schedule command,
      (execute (guarded SessionMachine.step StopUnchanged) (.init 0 sampleRuntime)
        schedule).map (fun m => decide (m.commands = [command])) = some true →
      ∃ m, Run SessionMachine.step StopUnchanged (.init 0 sampleRuntime) m ∧
        m.commands = [command] ∧ ResumeClassified m := by
    intro schedule command passed
    obtain ⟨m, reached, commands⟩ := exists_reaches_of_test passed
    have run := run_of_guarded reached
    exact ⟨m, run, of_decide_eq_true commands, resume_classified run⟩
  constructor
  · exact leaves (entrySchedule ++ [.commitResume 0 []]) _ (by decide)
  · exact leaves (entrySchedule.dropLast ++ overtakingSchedule ++
      [.requestResume 0 .continueExecution, .commitResume 0 []]) _ (by decide)

/-- The first request, which read the entry stop, leaves the runtime error of the
second one: the error that ends the program makes the session terminated. -/
theorem resume_misclassified :
    ∃ m,
      Reaches SessionMachine.step (.init 0 sampleRuntime) m ∧
        m.commands = [⟨false, .resumed (some .runtimeError)⟩] ∧
        m.session.terminating = false ∧
        (m.step (.commandReturns 0 (some abortedEvent) [])).map
          (fun next => next.session.state) = some .terminated ∧
        ¬ResumeClassified m := by
  have passed :
      (execute SessionMachine.step (.init 0 sampleRuntime)
        (entrySchedule ++ overtakingSchedule ++ [.commitResume 0 []])).map
        (fun m =>
          decide (m.commands = [⟨false, .resumed (some .runtimeError)⟩] ∧
            m.session.terminating = false ∧
            (m.step (.commandReturns 0 (some abortedEvent) [])).map
              (fun next => next.session.state) = some .terminated)) =
      some true := by
    decide
  obtain ⟨m, reached, observed⟩ := exists_reaches_of_test passed
  obtain ⟨commands, unasked, ended⟩ := of_decide_eq_true observed
  refine ⟨m, reached, commands, unasked, ended, ?_⟩
  intro classified
  obtain ⟨next, taken, terminated⟩ := Option.map_eq_some_iff.mp ended
  have found : m.commands[0]? = some ⟨false, .resumed (some .runtimeError)⟩ := by
    simp [commands]
  have failed :=
    (classified 0 _ _ abortedEvent next found rfl rfl (cons_ne_nil _ _) unasked taken).mpr rfl
  simp [terminated] at failed

end Ferretd.Debug

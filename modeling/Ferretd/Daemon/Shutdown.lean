import Ferretd.Daemon.Lifecycle

/-!
# A stop comes to its result

A `Stop` that is not cancelled returns the result that the one cleanup has published.
-/

namespace Ferretd.Daemons

open Library List

/-- A `Start` that has returned or has come to a wait. -/
def StartPC.rests : StartPC → Bool
  | .awaitStop _ | .serving | .returned _ => true
  | .checkContext | .begin | .listen | .listenFailed _ | .cleanUpFailed _ | .bound _
  | .cleanUpBound _ | .ready => false

/-- A `Stop` that has returned or has come to its wait. -/
def StopPC.rests : StopPC → Bool
  | .waiting | .stopResult | .returned _ | .cancelled _ => true
  | .begin | .cleanUp _ _ => false

/-- A bound on what a `Start` and the cleanup it may start have still to do. -/
def StartPC.left : StartPC → Nat
  | .checkContext => 20
  | .begin => 19
  | .listen => 18
  | .listenFailed _ | .bound _ => 17
  | .cleanUpFailed _ | .cleanUpBound _ => 16
  | .ready => 2
  | .serving | .awaitStop _ => 1
  | .returned _ => 0

/-- A bound on what a `Stop` and the cleanup it may start have still to do. -/
def StopPC.left : StopPC → Nat
  | .begin => 20
  | .cleanUp _ _ => 16
  | .waiting => 2
  | .stopResult => 1
  | .returned _ | .cancelled _ => 0

def Cleanup.left (cleanup : Cleanup) : Nat :=
  CleanupPC.finished.stage - cleanup.pc.stage

namespace Daemon

variable {pc' : StartPC} {reply : Reply} {action : Action} {err : GoError} {closed : Bool}
  {d next after : Daemon} {index : Nat}

def rank (d : Daemon) : Nat :=
  tally StartPC.left d.starts + tally StopPC.left d.stops +
    tally Cleanup.left d.cleanups

/-- The steps the calls and cleanups under way can take when the context of the `Stop` at
`index` is not cancelled. -/
def Underway (index : Nat) (d : Daemon) (action : Action) : Prop :=
  (d.step action).isSome = true ∧
    match action with
    | .start | .stop | .requestShutdown => False
    | .stopStep other reply => other = index → reply.ctxErr = []
    | .startStep _ _ | .cleanup _ _ => True

/-- The `Stop` at `index` has returned the retained result. -/
def Answered (index : Nat) (d : Daemon) : Prop :=
  d.state = .stopped ∧ d.stops[index]? = some (.returned d.stopErr)

/-- The `Stop` at `index` has been called and was not cancelled. -/
def Patient (index : Nat) (d : Daemon) : Prop :=
  ∃ pc, d.stops[index]? = some pc ∧ ∀ err, pc ≠ .cancelled err

/-! ## Every step lowers the rank -/

variable {pc : StartPC}

theorem StartEffect.lowers (effect : StartEffect d pc after pc') :
    after.starts = d.starts ∧ after.stops = d.stops ∧
      tally Cleanup.left after.cleanups + pc'.left <
        tally Cleanup.left d.cleanups + pc.left := by
  cases effect with
  | move moves => cases moves <;> exact ⟨rfl, rfl, by simp [StartPC.left]⟩
  | cleanUp cleans =>
    refine ⟨rfl, rfl, ?_⟩
    rcases cleans with ⟨err, rfl, rfl, rfl⟩ | ⟨bound, rfl, rfl, rfl⟩ <;>
      simp [startCleanup, StartPC.left, Cleanup.left, CleanupPC.stage]
  | _ => exact ⟨rfl, rfl, by simp [StartPC.left]⟩

theorem StopEffect.lowers {pc pc' : StopPC} (effect : StopEffect d reply pc after pc') :
    after.starts = d.starts ∧ after.stops = d.stops ∧
      tally Cleanup.left after.cleanups + pc'.left <
        tally Cleanup.left d.cleanups + pc.left := by
  cases effect with
  | move moves => cases moves <;> exact ⟨rfl, rfl, by simp [StopPC.left]⟩
  | cleanUp =>
    exact ⟨rfl, rfl, by simp [startCleanup, StopPC.left, Cleanup.left, CleanupPC.stage]⟩
  | _ => exact ⟨rfl, rfl, by simp [StopPC.left]⟩

variable {cleanup : Cleanup}

theorem CleanupEffect.lowers {pc' : CleanupPC} {result : GoError}
    (effect : CleanupEffect d cleanup after pc') :
    Cleanup.left { cleanup with pc := pc', result := result } < cleanup.left := by
  cases effect with
  | setNotServing at_ | closeExecutions at_ | clearWorkspaces at_ | awaitWorkspaces at_
  | stopGrpc at_ | skipGrpc at_ | drainGrpc at_ | closeListener at_ | closeRuntime at_
  | finishStop at_ => simp [Cleanup.left, at_, CleanupPC.stage]

theorem rank_lowers (turn : Underway index d action)
    (taken : d.step action = some next) : next.rank < d.rank := by
  cases Effect.of_step taken with
  | @start pos _ after pc' _ found effect =>
    obtain ⟨starts, stops, lower⟩ := effect.lowers
    have moved := tally_set StartPC.left found pc'
    show tally _ (after.starts.set pos pc') + tally _ after.stops +
      tally _ after.cleanups < _
    rw [starts, stops, rank]
    omega
  | @stop pos _ _ after pc' found effect =>
    obtain ⟨starts, stops, lower⟩ := effect.lowers
    have moved := tally_set StopPC.left found pc'
    show tally _ after.starts + tally _ (after.stops.set pos pc') +
      tally _ after.cleanups < _
    rw [starts, stops, rank]
    omega
  | @cleanup pos cleanup after pc' err _ found effect =>
    obtain ⟨starts, stops, cleanups⟩ := effect.calls
    have lower : Cleanup.left
        { cleanup with pc := pc', result := cleanup.result.join err } < cleanup.left :=
      effect.lowers
    have moved := tally_set Cleanup.left found
      { cleanup with pc := pc', result := cleanup.result.join err }
    show tally _ after.starts + tally _ after.stops + tally _ (after.cleanups.set pos _) < _
    rw [starts, stops, cleanups, rank]
    omega
  | _ => exact turn.2.elim

/-! ## Somebody has a turn -/

theorem startStep_charged (charged : pc.charge ≠ 0) :
    (d.startStep index .quiet pc).isSome = true := by
  cases pc with
  | listen | listenFailed | cleanUpFailed | cleanUpBound => rfl
  | bound =>
    simp only [startStep]
    split <;> rfl
  | _ =>
    exact absurd rfl charged

theorem cleanupStep_unfinished (unfinished : cleanup.pc ≠ .finished) :
    (d.cleanupStep index cleanup err).isSome = true := by
  unfold cleanupStep
  split
  · rfl
  · rfl
  · rfl
  · rfl
  · split <;> rfl
  · rfl
  · rfl
  · rfl
  · rfl
  next finished => exact absurd finished unfinished

theorem underway_stopStep {pc : StopPC} (found : d.stops[index]? = some pc)
    (enabled : (d.stopStep index .quiet pc).isSome = true) (target : Nat) :
    Underway target d (.stopStep index .quiet) := by
  refine ⟨?_, fun _ => rfl⟩
  simp only [step, found]
  exact enabled

theorem exists_underway_of_stopping (charged : Charged d) (ordered : Ordered d)
    (stopping : d.state = .stopping) (target : Nat) :
    ∃ action, Underway target d action := by
  have one := charged.one
  rw [stopping] at one
  by_cases cleaning : d.cleanups = []
  · by_cases starting : tally StartPC.charge d.starts = 0
    · have owed : tally StopPC.charge d.stops ≠ 0 := by
        rw [cleaning, starting] at one
        simp [LifecycleState.charge] at one
        omega
      obtain ⟨pc, inside, charge⟩ := exists_of_tally_ne_zero owed
      obtain ⟨pos, found⟩ := getElem?_of_mem inside
      refine ⟨.stopStep pos .quiet, underway_stopStep found ?_ target⟩
      cases pc with
      | cleanUp => rfl
      | _ => exact absurd rfl charge
    · obtain ⟨pc, inside, charge⟩ := exists_of_tally_ne_zero starting
      obtain ⟨pos, found⟩ := getElem?_of_mem inside
      refine ⟨.startStep pos .quiet, ?_, trivial⟩
      simp only [step, found]
      exact startStep_charged charge
  · obtain ⟨cleanup, rest, isCons⟩ := exists_cons_of_ne_nil cleaning
    have found : d.cleanups[0]? = some cleanup := by rw [isCons]; rfl
    refine ⟨.cleanup 0 .quiet, ?_, trivial⟩
    simp only [step, found]
    apply cleanupStep_unfinished
    intro finished
    have published : d.stopDone ≠ 0 := by
      rw [ordered.done, isCons, tally_cons]
      simp [Cleanup.Past, finished, CleanupPC.stage]
    rw [ordered.stopped.mpr published] at stopping
    cases stopping

theorem exists_underway (charged : Charged d) (ordered : Ordered d)
    (patient : Patient index d) (waits : ¬ Answered index d) :
    ∃ action, Underway index d action := by
  obtain ⟨pc, found, uncancelled⟩ := patient
  have fits := ordered.stops pc (mem_of_getElem? found)
  cases pc with
  | begin =>
    refine ⟨.stopStep index .quiet, underway_stopStep found ?_ index⟩
    simp only [stopStep]
    split <;> rfl
  | cleanUp => exact ⟨.stopStep index .quiet, underway_stopStep found rfl index⟩
  | stopResult => exact ⟨.stopStep index .quiet, underway_stopStep found rfl index⟩
  | waiting =>
    rcases fits with stopping | stopped
    · exact exists_underway_of_stopping charged ordered stopping index
    · have done := ordered.stopped.mp stopped
      refine ⟨.stopStep index .quiet, underway_stopStep found ?_ index⟩
      simp [stopStep, Reply.quiet, done]
  | returned =>
    obtain ⟨stopped, rfl⟩ := fits
    exact absurd ⟨stopped, found⟩ waits
  | cancelled err => exact absurd rfl (uncancelled err)

/-! ## Runs -/

theorem Patient.step (patient : Patient index d) (turn : Underway index d action)
    (taken : d.step action = some next) : Patient index next := by
  obtain ⟨pc, found, uncancelled⟩ := patient
  cases Effect.of_step taken with
  | @start _ _ after _ _ _ effect =>
    refine ⟨pc, ?_, uncancelled⟩
    show after.stops[index]? = some pc
    rw [effect.lowers.2.1, found]
  | @stop pos _ _ after pc'' located effect =>
    have stops : (after.stopGoes pos pc'').stops = d.stops.set pos pc'' := by
      show after.stops.set pos pc'' = _
      rw [effect.lowers.2.1]
    by_cases same : pos = index
    · subst same
      refine ⟨pc'', ?_, ?_⟩
      · rw [stops, getElem?_set_self' , located]
        rfl
      rintro err rfl
      cases effect with
      | move moves =>
        cases moves with
        | cancel cancelled => exact cancelled (turn.2 rfl)
    · refine ⟨pc, ?_, uncancelled⟩
      rw [stops, getElem?_set_ne same, found]
  | @cleanup _ _ after _ _ _ _ effect =>
    refine ⟨pc, ?_, uncancelled⟩
    show after.stops[index]? = some pc
    rw [effect.calls.2.1, found]
  | _ => exact turn.2.elim

section

variable {later : Daemon} (charged : Charged d) (ordered : Ordered d)
include charged ordered

theorem answered_attained (patient : Patient index d) :
    Attains step (Underway index) (Answered index) d := by
  let holds : Daemon → Prop := fun d =>
    Charged d ∧ Ordered d ∧ Patient index d
  have someone : ∀ d, holds d → ¬ Answered index d →
      ∃ action, Underway index d action :=
    fun d held waits => exists_underway held.1 held.2.1 held.2.2 waits
  have advances : ∀ d action, holds d → ¬ Answered index d →
      Underway index d action → ∃ next, d.step action = some next ∧ holds next ∧
        (Answered index next ∨ next.rank < d.rank) := by
    intro d action held _ turn
    obtain ⟨next, taken⟩ := Option.isSome_iff_exists.mp turn.1
    have heldNext : holds next :=
      ⟨held.1.step taken, held.2.1.step held.1 taken, held.2.2.step turn taken⟩
    exact ⟨next, taken, heldNext, Or.inr (rank_lowers turn taken)⟩
  exact attains_of_rank Nat.lt_wfRel.wf rank someone advances d ⟨charged, ordered, patient⟩

theorem retained_step (stopped : d.state = .stopped) (taken : d.step action = some next) :
    next.state = .stopped ∧ next.stopErr = d.stopErr := by
  have published := ordered.stopped.mp stopped
  cases Effect.of_step taken with
  | @start _ pc _ _ _ found effect =>
    have charging : ∀ listener, pc.handed ≠ some listener := by
      intro listener held
      obtain ⟨_, _, none, _⟩ := charged.start_alone found held
      exact ordered.unfinished none stopped
    cases effect with
    | begin fresh => simp [fresh] at stopped
    | listen | fail => exact absurd rfl (charging none)
    | @run listener => exact absurd rfl (charging (some listener))
    | _ => exact ⟨stopped, rfl⟩
  | stop _ effect =>
    cases effect with
    | move | cleanUp => exact ⟨stopped, rfl⟩
    | fresh state | interrupt state | stop state => simp [state] at stopped
  | @cleanup _ cleanup _ _ _ _ _ effect =>
    cases effect with
    | finishStop =>
      have same : d.finishStop cleanup.result = d := if_pos stopped
      show (d.finishStop cleanup.result).state = _ ∧
        (d.finishStop cleanup.result).stopErr = _
      rw [same]
      exact ⟨stopped, rfl⟩
    | _ => exact ⟨stopped, rfl⟩
  | _ => exact ⟨stopped, rfl⟩

theorem retained_reached (stopped : d.state = .stopped) (run : Reaches step d later) :
    later.state = .stopped ∧ later.stopErr = d.stopErr := by
  have kept : (Charged later ∧ Ordered later) ∧ later.state = .stopped ∧
      later.stopErr = d.stopErr := by
    apply run.invariant
    · exact ⟨⟨charged, ordered⟩, stopped, rfl⟩
    intro middle action next held _ taken
    obtain ⟨state, stopErr⟩ := retained_step held.1.1 held.1.2 held.2.1 taken
    exact ⟨⟨held.1.1.step taken, held.1.2.step held.1.1 taken⟩, state, stopErr.trans held.2.2⟩
  exact kept.2

end

/-- What the lifecycle guarantees of a state of the daemon. -/
structure Lifecycle (d : Daemon) : Prop where
  cleanup_once : d.cleanups.length ≤ 1
  done_once : d.stopDone ≤ 1
  runtime_once : d.runtimeClosed ≤ 1
  runtime_last : d.runtimeClosed ≠ 0 →
    d.executionsClosed = true ∧ d.workspacesClosed = true
  cleanup_started : d.stops ≠ [] → (∀ pc ∈ d.starts, pc.rests = true) →
    (∀ pc ∈ d.stops, pc.rests = true) → d.cleanups.length = 1
  listener_closed : ∀ listener closed, d.listeners[listener]? = some closed →
    ∀ cleanup ∈ d.cleanups, cleanup.listener = some listener ∧ closed = cleanup.closed
  stopped_closed : d.state = .stopped →
    ∃ cleanup ∈ d.cleanups, cleanup.closed = true ∧ cleanup.result = d.stopErr
  retained : ∀ err, .returned err ∈ d.stops → ∀ later, Reaches step d later →
    later.state = .stopped ∧ later.stopErr = err
  returns : ∀ index, Patient index d → Attains step (Underway index) (Answered index) d

theorem charge_of_rests (rests : pc.rests = true) : pc.charge = 0 := by
  cases pc <;> first | rfl | cases rests

theorem stop_charge_of_rests {pc : StopPC} (rests : pc.rests = true) : pc.charge = 0 := by
  cases pc <;> first | rfl | cases rests

theorem cleanup_started (charged : Charged d) (ordered : Ordered d)
    (called : d.stops ≠ []) (starts : ∀ pc ∈ d.starts, pc.rests = true)
    (stops : ∀ pc ∈ d.stops, pc.rests = true) : d.cleanups.length = 1 := by
  have one := charged.one
  rw [tally_eq_zero fun pc inside => charge_of_rests (starts pc inside),
    tally_eq_zero fun pc inside => stop_charge_of_rests (stops pc inside)] at one
  obtain ⟨pc, rest, isCons⟩ := exists_cons_of_ne_nil called
  have inside : pc ∈ d.stops := by rw [isCons]; exact mem_cons_self
  have idle : d.state.charge = 0 := by
    by_contra busy
    have begun : pc = .begin := by
      apply (ordered.stops pc inside).begin
      · intro state
        simp [state, LifecycleState.charge] at busy
      · intro state
        simp [state, LifecycleState.charge] at busy
    subst begun
    cases stops _ inside
  omega

theorem listener_closed (charged : Charged d) {listener : Nat}
    (bound : d.listeners[listener]? = some closed) (inside : cleanup ∈ d.cleanups) :
    cleanup.listener = some listener ∧ closed = cleanup.closed := by
  rcases charged.cleanups cleanup inside with ⟨_, empty⟩ | ⟨held, single⟩
  · simp [empty] at bound
  rw [single] at bound
  cases listener with
  | zero => exact ⟨held, by simpa using bound.symm⟩
  | succ => simp at bound

theorem tally_past_le_one (charged : Charged d) (pc : CleanupPC) :
    tally (fun cleanup : Cleanup => if cleanup.Past pc then 1 else 0) d.cleanups ≤ 1 := by
  have one := charged.one
  match listed : d.cleanups with
  | [] => exact Nat.zero_le 1
  | [cleanup] =>
    rw [tally_cons, tally_nil]
    split <;> decide
  | first :: second :: rest =>
    rw [listed] at one
    simp only [length_cons] at one
    omega

/-- Every state that calls of `Start` and `Stop` lead to keeps the lifecycle. -/
theorem lifecycle_kept (run : Reaches step new d) : Lifecycle d := by
  obtain ⟨charged, ordered⟩ := sound_reached run
  exact {
    cleanup_once := by have one := charged.one; omega
    done_once := by rw [ordered.done]; exact tally_past_le_one charged .finishStop
    runtime_once := by rw [ordered.runtime]; exact tally_past_le_one charged .closeRuntime
    runtime_last := by
      intro closed
      rw [ordered.runtime] at closed
      obtain ⟨cleanup, inside, late⟩ := exists_of_tally_ne_zero closed
      have past : cleanup.Past .closeRuntime := by
        by_contra early
        exact late (if_neg early)
      exact ⟨ordered.executions cleanup inside (past.earlier (by decide)),
        ordered.workspaces cleanup inside (past.earlier (by decide))⟩
    cleanup_started := cleanup_started charged ordered
    listener_closed := fun listener closed bound cleanup inside =>
      listener_closed charged bound inside
    stopped_closed := by
      intro stopped
      have published := ordered.stopped.mp stopped
      rw [ordered.done] at published
      obtain ⟨cleanup, inside, late⟩ := exists_of_tally_ne_zero published
      have past : cleanup.Past .finishStop := by
        by_contra early
        exact late (if_neg early)
      refine ⟨cleanup, inside, ?_, ordered.result cleanup inside ?_⟩
      · exact decide_eq_true (past.earlier (by decide))
      · cases at_ : cleanup.pc <;> simp [at_, CleanupPC.stage] at past ⊢
    retained := by
      intro err inside later run'
      obtain ⟨stopped, rfl⟩ := ordered.stops _ inside
      exact retained_reached charged ordered stopped run'
    returns := fun index patient => answered_attained charged ordered patient }

/-- A `Stop` that comes while `Start` is listening hands the listener over to the cleanup
that `Start` starts. -/
theorem lifecycle_kept_interrupted :
    ∃ d, Reaches step new d ∧ d.state = .stopped ∧
      d.listeners = [true] ∧ d.stops = [.returned []] ∧ Lifecycle d := by
  have executed : (execute step new ([.start, .stop] ++
      [.startStep 0 .quiet, .startStep 0 .quiet, .stopStep 0 .quiet] ++
      List.replicate 3 (.startStep 0 .quiet) ++ List.replicate 8 (.cleanup 0 .quiet) ++
      [.stopStep 0 .quiet, .stopStep 0 .quiet])).map
        (fun d => (d.state, d.listeners, d.stops)) =
      some (.stopped, [true], [.returned []]) := by rfl
  obtain ⟨d, reached, values⟩ := Option.map_eq_some_iff.mp executed
  simp only [Prod.mk.injEq] at values
  have run := reaches_of_execute reached
  exact ⟨d, run, values.1, values.2.1, values.2.2, lifecycle_kept run⟩

end Daemon

end Ferretd.Daemons

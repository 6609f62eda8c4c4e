import Ferretd.Daemon.Lifecycle

/-!
# The cleanup of a daemon that has served

The cleanup of a daemon that has served drains the gRPC server.
-/

namespace Ferretd.Daemons

open Library List

namespace Daemon

variable {index : Nat} {pc' pc : StartPC} {cleanup : Cleanup} {d next after : Daemon}
  {action : Action}

/-- A `Start` has found the daemon wanted and serves, or is about to. -/
def HasRun (d : Daemon) : Prop :=
  d.serves = true ∨ .ready ∈ d.starts

/-- A daemon that has run is stopped by a cleanup that drains the gRPC server. -/
structure Drains (d : Daemon) : Prop where
  begun : d.state ≠ .new
  starts : ∀ pc ∈ d.starts, pc.handed = none
  stops : ∀ listener serving, .cleanUp listener serving ∈ d.stops → serving = true
  cleanups : ∀ cleanup ∈ d.cleanups, cleanup.serving = true

theorem HasRun.of_startGoes (ran : HasRun (d.startGoes index pc'))
    (elsewhere : pc' ≠ .ready) : HasRun d := by
  rcases ran with serves | ready
  · exact .inl serves
  · rcases mem_or_eq_of_mem_set ready with before | equal
    · exact .inr before
    · exact absurd equal.symm elsewhere

theorem Drains.startMoves (drains : Drains d)
    (found : d.starts[index]? = some pc) (same : pc'.handed = pc.handed)
    (state : next.state = d.state) (starts : next.starts = d.starts.set index pc')
    (stops : next.stops = d.stops) (cleanups : next.cleanups = d.cleanups) :
    Drains next where
  begun := state ▸ drains.begun
  starts := by
    intro pc'' inside
    rw [starts] at inside
    rcases mem_or_eq_of_mem_set inside with before | rfl
    · exact drains.starts pc'' before
    · rw [same]
      exact drains.starts pc (mem_of_getElem? found)
  stops := stops ▸ drains.stops
  cleanups := cleanups ▸ drains.cleanups

theorem drains_step (charged : Charged d) (drains : HasRun d → Drains d)
    (taken : d.step action = some next) (ran : HasRun next) : Drains next := by
  cases Effect.of_step taken with
  | callStart =>
    have before : HasRun d := by
      rcases ran with serves | ready
      · exact .inl serves
      · rcases mem_append.mp ready with old | new
        · exact .inr old
        · cases mem_singleton.mp new
    have kept := drains before
    refine ⟨kept.begun, ?_, kept.stops, kept.cleanups⟩
    intro pc inside
    rcases mem_append.mp inside with old | new
    · exact kept.starts pc old
    · cases mem_singleton.mp new
      rfl
  | requestShutdown =>
    have kept := drains ran
    exact ⟨kept.begun, kept.starts, kept.stops, kept.cleanups⟩
  | callStop =>
    have kept := drains ran
    refine ⟨kept.begun, kept.starts, ?_, kept.cleanups⟩
    intro listener serving inside
    rcases mem_append.mp inside with old | new
    · exact kept.stops listener serving old
    · cases mem_singleton.mp new
  | @start _ _ _ pc' _ found effect =>
    have present := mem_of_getElem? found
    cases effect with
    | move moves =>
      have elsewhere : pc' ≠ .ready := by cases moves <;> nofun
      exact (drains (ran.of_startGoes elsewhere)).startMoves found moves.handed rfl rfl rfl
        rfl
    | begin fresh =>
      have before : HasRun d := ran.of_startGoes (by simp)
      exact absurd fresh (drains before).begun
    | listen | fail =>
      have before : HasRun d := ran.of_startGoes (by simp)
      cases (drains before).starts _ present
    | @run listener =>
      obtain ⟨others, stops, cleanups, _⟩ := charged.start_alone found rfl
      refine ⟨nofun, ?_, ?_, ?_⟩
      · intro pc'' inside
        obtain ⟨other, located⟩ := getElem?_of_mem inside
        rcases getElem?_set_cases located with ⟨_, rfl⟩ | ⟨different, before⟩
        · rfl
        · exact others other pc'' different before
      · intro listener serving inside
        cases stops _ inside
      · intro cleanup inside
        have none : cleanup ∈ d.cleanups := inside
        rw [cleanups] at none
        cases none
    | serve =>
      have same : StartPC.serving.handed = StartPC.ready.handed := rfl
      exact (drains (.inr present)).startMoves found same rfl rfl rfl rfl
    | cleanUp cleans =>
      have before : HasRun d := by
        apply ran.of_startGoes
        rcases cleans with ⟨err, rfl, rfl, rfl⟩ | ⟨bound, rfl, rfl, rfl⟩ <;> nofun
      have unheld := (drains before).starts _ present
      rcases cleans with ⟨err, rfl, rfl, rfl⟩ | ⟨bound, rfl, rfl, rfl⟩ <;> cases unheld
  | @stop index _ _ _ pc' found effect =>
    have others : Drains d →
        (∀ listener serving, pc' = .cleanUp listener serving → serving = true) →
        ∀ listener serving, .cleanUp listener serving ∈ d.stops.set index pc' →
          serving = true := by
      intro kept mine listener serving inside
      rcases mem_or_eq_of_mem_set inside with old | equal
      · exact kept.stops listener serving old
      · exact mine listener serving equal.symm
    cases effect with
    | move moves =>
      have kept := drains ran
      refine ⟨kept.begun, kept.starts, others kept ?_, kept.cleanups⟩
      rintro listener serving rfl
      cases moves
    | fresh state => exact absurd state (drains ran).begun
    | interrupt =>
      have kept := drains ran
      exact ⟨nofun, kept.starts, others kept nofun, kept.cleanups⟩
    | stop =>
      have kept := drains ran
      refine ⟨nofun, kept.starts, others kept ?_, kept.cleanups⟩
      intro listener serving equal
      cases equal
      rfl
    | @cleanUp serving listener =>
      have kept := drains ran
      refine ⟨kept.begun, kept.starts, others kept nofun, ?_⟩
      intro cleanup inside
      rcases mem_append.mp inside with old | new
      · exact kept.cleanups cleanup old
      · cases mem_singleton.mp new
        exact kept.stops listener serving (mem_of_getElem? found)
  | @cleanup index cleanup after _ _ _ found effect =>
    have serves : after.serves = d.serves := by
      cases effect with
      | finishStop =>
        unfold Daemon.finishStop
        split <;> rfl
      | _ => rfl
    have before : HasRun d := by
      rcases ran with served | ready
      · exact .inl (serves ▸ served)
      · exact .inr (effect.calls.1 ▸ ready)
    have kept := drains before
    refine ⟨?_, effect.calls.1 ▸ kept.starts, effect.calls.2.1 ▸ kept.stops, ?_⟩
    · intro fresh
      have idle := effect.charge (charged.cleanup_alone found).2.2.2.2
      have state : after.state = .new := fresh
      simp [state, LifecycleState.charge] at idle
    intro other inside
    have listed : other ∈ after.cleanups.set index _ := inside
    rw [effect.calls.2.2] at listed
    rcases mem_or_eq_of_mem_set listed with old | rfl
    · exact kept.cleanups other old
    · exact kept.cleanups cleanup (mem_of_getElem? found)

/-! ## The cleanups of a step -/

theorem CleanupEffect.advances {pc' : CleanupPC} (effect : CleanupEffect d cleanup after pc') :
    pc'.stage = cleanup.pc.stage + 1 ∨
      cleanup.pc = .stopGrpc ∧ cleanup.serving = false ∧ pc' = .closeListener := by
  cases effect with
  | skipGrpc at_ serving => exact .inr ⟨at_, serving, rfl⟩
  | setNotServing at_ | closeExecutions at_ | clearWorkspaces at_ | awaitWorkspaces at_
  | stopGrpc at_ | drainGrpc at_ | closeListener at_ | closeRuntime at_ | finishStop at_ =>
    exact .inl (by rw [at_]; rfl)

theorem cleanup_before (taken : d.step action = some next) (inside : cleanup ∈ next.cleanups) :
    cleanup ∈ d.cleanups ∨ cleanup.pc.stage = 0 ∨
      ∃ index reply before, action = .cleanup index reply ∧
        d.cleanups[index]? = some before ∧ cleanup.serving = before.serving ∧
        (cleanup.pc.stage = before.pc.stage + 1 ∨
          before.pc = .stopGrpc ∧ before.serving = false) := by
  have grown : ∀ {listener : Option Nat} {serving : Bool},
      cleanup ∈ d.cleanups ++ [⟨listener, serving, .setNotServing, []⟩] →
        cleanup ∈ d.cleanups ∨ cleanup.pc.stage = 0 := by
    intro listener serving present
    rcases mem_append.mp present with old | new
    · exact .inl old
    · cases mem_singleton.mp new
      exact .inr rfl
  cases Effect.of_step taken with
  | start _ effect =>
    cases effect with
    | cleanUp => exact (grown inside).imp_right .inl
    | _ => exact .inl inside
  | stop _ effect =>
    cases effect with
    | cleanUp => exact (grown inside).imp_right .inl
    | _ => exact .inl inside
  | @cleanup index before after _ _ reply found effect =>
    have present : cleanup ∈ after.cleanups.set index _ := inside
    rw [effect.calls.2.2] at present
    rcases mem_or_eq_of_mem_set present with old | rfl
    · exact .inl old
    · refine .inr (.inr ⟨index, reply, before, rfl, found, rfl, ?_⟩)
      exact effect.advances.imp_right fun skipped => ⟨skipped.1, skipped.2.1⟩
  | _ => exact .inl inside

theorem serves_kept (taken : d.step action = some next) (serves : d.serves = true) :
    next.serves = true := by
  cases Effect.of_step taken with
  | start _ effect =>
    cases effect with
    | serve => rfl
    | _ => exact serves
  | stop _ effect => cases effect <;> exact serves
  | cleanup _ effect =>
    cases effect with
    | finishStop =>
      unfold Daemon.finishStop
      split <;> exact serves
    | _ => exact serves
  | _ => exact serves

end Daemon

end Ferretd.Daemons

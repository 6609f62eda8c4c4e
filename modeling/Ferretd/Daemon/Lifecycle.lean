import Ferretd.Daemon.Daemon

/-!
# The daemon's lifecycle

At any time exactly one party is in charge of the shutdown: the daemon itself, a `Start`, a
`Stop`, or the cleanup.  It holds the listener when one is bound, and it hands the charge
on or keeps it.
-/

namespace Ferretd.Daemons

open Library CleanupPC List

/-- A `Start` in charge, and the listener it holds. -/
def StartPC.handed : StartPC → Option (Option Nat)
  | .listen | .listenFailed _ | .cleanUpFailed _ => some none
  | .bound listener | .cleanUpBound listener => some (some listener)
  | .checkContext | .begin | .awaitStop _ | .ready | .serving | .returned _ => none

/-- A `Stop` in charge, and the listener it holds. -/
def StopPC.handed : StopPC → Option (Option Nat)
  | .cleanUp listener _ => some listener
  | .begin | .waiting | .stopResult | .returned _ | .cancelled _ => none

/-- The number of charges of a `Start`. -/
def StartPC.charge (pc : StartPC) : Nat :=
  pc.handed.toList.length

/-- The number of charges of a `Stop`. -/
def StopPC.charge (pc : StopPC) : Nat :=
  pc.handed.toList.length

/-- The daemon is in charge until a `Start` or a `Stop` takes over, and while it runs. -/
def LifecycleState.charge : LifecycleState → Nat
  | .new | .running => 1
  | .starting | .stopping | .stopped => 0

def CleanupPC.stage : CleanupPC → Nat
  | .setNotServing => 0
  | .closeExecutions => 1
  | .clearWorkspaces => 2
  | .awaitWorkspaces => 3
  | .stopGrpc => 4
  | .drainGrpc => 5
  | .closeListener => 6
  | .closeRuntime => 7
  | .finishStop => 8
  | .finished => 9

def Cleanup.closed (cleanup : Cleanup) : Bool :=
  decide (CleanupPC.closeListener.stage < cleanup.pc.stage)

/-- The cleanup has left a control point behind. -/
abbrev Cleanup.Past (cleanup : Cleanup) (pc : CleanupPC) : Prop :=
  pc.stage < cleanup.pc.stage

theorem Cleanup.past_of_pc {cleanup : Cleanup} {pc before : CleanupPC}
    (at_ : cleanup.pc = pc) (order : before.stage < pc.stage) : cleanup.Past before := by
  rw [Past, at_]
  exact order

theorem Cleanup.Past.earlier {cleanup : Cleanup} {pc before : CleanupPC}
    (past : cleanup.Past pc) (order : before.stage ≤ pc.stage) : cleanup.Past before :=
  Nat.lt_of_le_of_lt order past

namespace Daemon

variable {pc : StartPC} {pc' : StopPC} {action : Action} {d next after : Daemon} {index : Nat}
  {reply : Reply}

/-- `listener` is what was bound, and `closed` says whether it is closed. -/
def Handed (d : Daemon) (listener : Option Nat) (closed : Bool) : Prop :=
  listener = none ∧ d.listeners = [] ∨ listener = some 0 ∧ d.listeners = [closed]

/-- One party is in charge and holds the listener that was bound. -/
structure Charged (d : Daemon) : Prop where
  one : tally StartPC.charge d.starts + tally StopPC.charge d.stops +
    d.cleanups.length + d.state.charge = 1
  fresh : d.state = .new → d.Handed none false
  running : d.state = .running → d.Handed d.listener false
  starts : ∀ pc ∈ d.starts, ∀ listener, pc.handed = some listener →
    d.Handed listener false
  stops : ∀ pc ∈ d.stops, ∀ listener, pc.handed = some listener →
    d.Handed listener false
  cleanups : ∀ cleanup ∈ d.cleanups, d.Handed cleanup.listener cleanup.closed

theorem handed_eq_none_of_charge {handed : Option (Option Nat)}
    (uncharged : handed.toList.length = 0) : handed = none := by
  cases handed with
  | none => rfl
  | some => cases uncharged

theorem StartMove.handed {pc' : StartPC} (moves : StartMove d pc pc') : pc'.handed = pc.handed := by
  cases moves <;> rfl

variable {pc : StopPC}

theorem StopMove.handed (moves : StopMove d reply pc pc') :
    pc'.handed = none ∧ pc.handed = none := by
  cases moves <;> exact ⟨rfl, rfl⟩

variable {cleanup : Cleanup} {pc' : CleanupPC}

section

variable (effect : CleanupEffect d cleanup after pc')
include effect

theorem CleanupEffect.calls :
    after.starts = d.starts ∧ after.stops = d.stops ∧
      after.cleanups = d.cleanups := by
  cases effect with
  | finishStop =>
    unfold Daemon.finishStop
    split <;> exact ⟨rfl, rfl, rfl⟩
  | _ => exact ⟨rfl, rfl, rfl⟩

theorem CleanupEffect.charge (idle : d.state.charge = 0) : after.state.charge = 0 := by
  cases effect with
  | finishStop =>
    unfold Daemon.finishStop
    split
    · exact idle
    · rfl
  | _ => exact idle

theorem CleanupEffect.single (only : d.cleanups = [cleanup]) (err : GoError) :
    (after.cleanupGoes 0 cleanup pc' err).cleanups =
      [{ cleanup with pc := pc', result := cleanup.result.join err }] := by
  show after.cleanups.set 0 _ = _
  rw [effect.calls.2.2, only]
  rfl

theorem CleanupEffect.handed {result : GoError}
    (handed : d.Handed cleanup.listener cleanup.closed) :
    after.Handed cleanup.listener
      (Cleanup.closed { cleanup with pc := pc', result := result }) := by
  cases effect with
  | closeListener =>
    rcases handed with ⟨unbound, empty⟩ | ⟨bound, single⟩
    · rw [unbound]
      exact .inl ⟨rfl, empty⟩
    rw [bound]
    refine .inr ⟨rfl, ?_⟩
    show d.listeners.set 0 true = [true]
    rw [single]
    rfl
  | finishStop at_ =>
    rw [Cleanup.closed, at_] at handed
    unfold Daemon.finishStop
    split <;> exact handed
  | setNotServing at_ | closeExecutions at_ | clearWorkspaces at_ | awaitWorkspaces at_
  | stopGrpc at_ | skipGrpc at_ | drainGrpc at_ | closeRuntime at_ =>
    rw [Cleanup.closed, at_] at handed
    exact handed

end

namespace Charged

variable {serving : Bool} {err : GoError} (charged : Charged d)
include charged

variable {listener : Option Nat}

theorem start_alone {pc : StartPC} (found : d.starts[index]? = some pc)
    (held : pc.handed = some listener) :
    (∀ other pc', other ≠ index → d.starts[other]? = some pc' → pc'.handed = none) ∧
      (∀ pc' ∈ d.stops, pc'.handed = none) ∧ d.cleanups = [] ∧
      d.state.charge = 0 := by
  have one := charged.one
  have mine : pc.charge = 1 := by simp [StartPC.charge, held]
  have below := weight_le_tally StartPC.charge (mem_of_getElem? found)
  refine ⟨?_, ?_, ?_, by omega⟩
  · intro other pc' different located
    have both := add_le_tally StartPC.charge found located different
    exact handed_eq_none_of_charge (show pc'.charge = 0 by omega)
  · intro pc' present
    have bound := weight_le_tally StopPC.charge present
    exact handed_eq_none_of_charge (show pc'.charge = 0 by omega)
  · exact length_eq_zero_iff.mp (by omega)

theorem cleanup_alone (found : d.cleanups[index]? = some cleanup) :
    index = 0 ∧ d.cleanups = [cleanup] ∧ (∀ pc ∈ d.starts, pc.handed = none) ∧
      (∀ pc ∈ d.stops, pc.handed = none) ∧ d.state.charge = 0 := by
  have one := charged.one
  obtain ⟨inside, located⟩ := List.getElem?_eq_some_iff.mp found
  have single : d.cleanups.length = 1 := by omega
  obtain ⟨only, isOnly⟩ := length_eq_one_iff.mp single
  have first : index = 0 := by omega
  subst first
  have same : only = cleanup := by simpa [isOnly] using found
  refine ⟨rfl, by rw [isOnly, same], ?_, ?_, by omega⟩
  · intro pc present
    have bound := weight_le_tally StartPC.charge present
    exact handed_eq_none_of_charge (show pc.charge = 0 by omega)
  · intro pc present
    have bound := weight_le_tally StopPC.charge present
    exact handed_eq_none_of_charge (show pc.charge = 0 by omega)

theorem started (handed : d.Handed listener false) :
    ∀ cleanup ∈ (d.startCleanup listener serving).cleanups,
      d.Handed cleanup.listener cleanup.closed :=
  forall_mem_append.mpr ⟨charged.cleanups, forall_mem_singleton.mpr handed⟩

theorem startEffect {pc pc' : StartPC} (found : d.starts[index]? = some pc)
    (effect : StartEffect d pc after pc') : Charged (after.startGoes index pc') := by
  have present := mem_of_getElem? found
  have one : ∀ (state : LifecycleState) (added : Nat),
      pc'.charge + state.charge + added = pc.charge + d.state.charge →
      tally StartPC.charge (d.starts.set index pc') + tally StopPC.charge d.stops +
        (d.cleanups.length + added) + state.charge = 1 := by
    have moved := tally_set StartPC.charge found pc'
    have total := charged.one
    omega
  have starts : (∀ listener, pc'.handed = some listener → d.Handed listener false) →
      ∀ other ∈ d.starts.set index pc', ∀ listener, other.handed = some listener →
        d.Handed listener false := by
    intro mine other inside
    rcases mem_or_eq_of_mem_set inside with before | rfl
    · exact charged.starts other before
    · exact mine
  cases effect with
  | move moves =>
    have same := moves.handed
    exact { charged with
      one := one d.state 0 (by simp only [StartPC.charge, same, Nat.add_zero])
      starts := starts fun listener held =>
        charged.starts pc present listener (same ▸ held) }
  | begin fresh =>
    exact { charged with
      one := one .starting 0 (by rw [fresh]; rfl)
      fresh := nofun
      running := nofun
      starts := starts fun listener held => by cases held; exact charged.fresh fresh }
  | listen =>
    obtain ⟨others, stops, cleanups, state⟩ := charged.start_alone found rfl
    have empty : d.listeners = [] := by
      rcases charged.starts _ present none rfl with ⟨_, empty⟩ | ⟨absurd, _⟩
      · exact empty
      · cases absurd
    -- nobody else is in charge, so the new listener is nobody else's
    exact {
      one := one d.state 0 rfl
      fresh := fun fresh => by cases (congrArg LifecycleState.charge fresh).symm.trans state
      running := fun runs => by cases (congrArg LifecycleState.charge runs).symm.trans state
      starts := fun other inside listener held => by
        obtain ⟨pos, located⟩ := getElem?_of_mem inside
        rcases getElem?_set_cases located with ⟨_, rfl⟩ | ⟨different, before⟩
        · cases held
          exact .inr ⟨by rw [empty]; rfl, by rw [startGoes, empty]; rfl⟩
        · cases (others pos other different before).symm.trans held
      stops := fun other inside listener held => by cases (stops other inside).symm.trans held
      cleanups := by
        intro cleanup inside
        cases cleanups ▸ (show cleanup ∈ d.cleanups from inside) }
  | @fail err =>
    have idle := (charged.start_alone found rfl).2.2.2
    exact { charged with
      one := one .stopping 0 (by rw [idle]; rfl)
      fresh := nofun
      running := nofun
      starts := starts (charged.starts (.listenFailed err) present) }
  | @run listener =>
    have idle := (charged.start_alone found rfl).2.2.2
    exact { charged with
      one := one .running 0 (by rw [idle]; rfl)
      fresh := nofun
      running := fun _ => charged.starts _ present (some listener) rfl
      starts := starts nofun }
  | serve => exact { charged with one := one d.state 0 rfl, starts := starts nofun }
  | @cleanUp _ _ listener cleans =>
    obtain ⟨held, left⟩ : pc.handed = some listener ∧ pc'.handed = none := by
      rcases cleans with ⟨err, rfl, rfl, rfl⟩ | ⟨bound, rfl, rfl, rfl⟩ <;> exact ⟨rfl, rfl⟩
    exact { charged with
      one := by
        simpa [startGoes, startCleanup] using
          one d.state 1 (by simp [StartPC.charge, held, left, Nat.add_comm])
      starts := starts fun listener held => by cases left.symm.trans held
      cleanups := charged.started (charged.starts pc present listener held) }

theorem stopEffect {pc' : StopPC} (found : d.stops[index]? = some pc)
    (effect : StopEffect d reply pc after pc') : Charged (after.stopGoes index pc') := by
  have present := mem_of_getElem? found
  have one : ∀ (state : LifecycleState) (added : Nat),
      pc'.charge + state.charge + added = pc.charge + d.state.charge →
      tally StartPC.charge d.starts + tally StopPC.charge (d.stops.set index pc') +
        (d.cleanups.length + added) + state.charge = 1 := by
    have moved := tally_set StopPC.charge found pc'
    have total := charged.one
    omega
  have stops : (∀ listener, pc'.handed = some listener → d.Handed listener false) →
      ∀ other ∈ d.stops.set index pc', ∀ listener, other.handed = some listener →
        d.Handed listener false := by
    intro mine other inside
    rcases mem_or_eq_of_mem_set inside with before | rfl
    · exact charged.stops other before
    · exact mine
  cases effect with
  | move moves =>
    obtain ⟨left, unheld⟩ := moves.handed
    exact { charged with
      one := one d.state 0 (by simp only [StopPC.charge, left, unheld, Nat.add_zero])
      stops := stops fun listener held => by cases left.symm.trans held }
  | fresh unstarted =>
    exact { charged with
      one := one .stopping 0 (by rw [unstarted]; rfl)
      fresh := nofun
      running := nofun
      stops := stops fun listener held => by cases held; exact charged.fresh unstarted }
  | interrupt starting =>
    exact { charged with
      one := one .stopping 0 (by rw [starting]; rfl)
      fresh := nofun
      running := nofun
      stops := stops nofun }
  | stop running =>
    exact { charged with
      one := one .stopping 0 (by rw [running]; rfl)
      fresh := nofun
      running := nofun
      stops := stops fun listener held => by cases held; exact charged.running running }
  | @cleanUp _ listener =>
    exact { charged with
      one := by
        simpa [stopGoes, startCleanup] using
          one d.state 1 (by simp [StopPC.charge, StopPC.handed, Nat.add_comm])
      stops := stops nofun
      cleanups := charged.started (charged.stops _ present listener rfl) }

theorem cleanupEffect (found : d.cleanups[index]? = some cleanup)
    (effect : CleanupEffect d cleanup after pc') :
    Charged (after.cleanupGoes index cleanup pc' err) := by
  obtain ⟨rfl, only, starts, stops, state⟩ := charged.cleanup_alone found
  have one := charged.one
  have cleanups := effect.single only err
  have idle := effect.charge state
  exact {
    one := by
      rw [cleanups]
      show tally _ after.starts + tally _ after.stops + 1 + after.state.charge = 1
      rw [effect.calls.1, effect.calls.2.1, idle]
      rwa [only, state] at one
    fresh := fun fresh => by cases (congrArg LifecycleState.charge fresh).symm.trans idle
    running := fun runs => by cases (congrArg LifecycleState.charge runs).symm.trans idle
    starts := fun pc inside listener held => by
      cases (starts pc (effect.calls.1 ▸ inside)).symm.trans held
    stops := fun pc inside listener held => by
      cases (stops pc (effect.calls.2.1 ▸ inside)).symm.trans held
    cleanups := fun other inside => by
      rw [cleanups] at inside
      cases mem_singleton.mp inside
      exact effect.handed (charged.cleanups cleanup (mem_of_getElem? found)) }

theorem step (taken : d.step action = some next) : Charged next := by
  cases Effect.of_step taken with
  | callStart =>
    exact { charged with
      one := by
        rw [tally_concat]
        exact charged.one
      starts := forall_mem_append.mpr ⟨charged.starts, by simp [StartPC.handed]⟩ }
  | start found effect => exact charged.startEffect found effect
  | callStop =>
    exact { charged with
      one := by
        rw [tally_concat]
        exact charged.one
      stops := forall_mem_append.mpr ⟨charged.stops, by simp [StopPC.handed]⟩ }
  | stop found effect => exact charged.stopEffect found effect
  | cleanup found effect =>
    exact charged.cleanupEffect found effect
  | requestShutdown => exact { charged with }

end Charged

theorem charged_new : Charged new where
  one := rfl
  fresh := fun _ => .inl ⟨rfl, rfl⟩
  running := nofun
  starts := nofun
  stops := nofun
  cleanups := nofun

/-! ## The cleanup and its result -/

/-- What a call of `Stop` knows of the daemon. -/
def Fits (d : Daemon) : StopPC → Prop
  | .begin => True
  | .cleanUp _ _ => d.state = .stopping
  | .waiting | .cancelled _ => d.state = .stopping ∨ d.state = .stopped
  | .stopResult => d.state = .stopped
  | .returned err => d.state = .stopped ∧ err = d.stopErr

/-- The services a cleanup has called, and the result it publishes. -/
structure Ordered (d : Daemon) : Prop where
  executions : ∀ cleanup ∈ d.cleanups, cleanup.Past .closeExecutions → d.executionsClosed = true
  workspaces : ∀ cleanup ∈ d.cleanups, cleanup.Past .awaitWorkspaces → d.workspacesClosed = true
  runtime : d.runtimeClosed =
    tally (fun cleanup => if cleanup.Past .closeRuntime then 1 else 0) d.cleanups
  done : d.stopDone =
    tally (fun cleanup => if cleanup.Past .finishStop then 1 else 0) d.cleanups
  stopped : d.state = .stopped ↔ d.stopDone ≠ 0
  result : ∀ cleanup ∈ d.cleanups, cleanup.pc = .finished → cleanup.result = d.stopErr
  stops : ∀ pc ∈ d.stops, d.Fits pc

theorem Fits.stopping (fits : d.Fits pc) (unfinished : d.state ≠ .stopped)
    (state : next.state = .stopping) : next.Fits pc := by
  cases pc with
  | begin => trivial
  | cleanUp => exact state
  | waiting | cancelled => exact .inl state
  | stopResult => exact absurd fits unfinished
  | returned => exact absurd fits.1 unfinished

theorem Fits.begin (fits : d.Fits pc) (unfinished : d.state ≠ .stopped)
    (unstopped : d.state ≠ .stopping) : pc = .begin := by
  cases pc with
  | begin => rfl
  | cleanUp => exact absurd fits unstopped
  | waiting | cancelled => exact (fits.elim unstopped unfinished).elim
  | stopResult => exact absurd fits unfinished
  | returned => exact absurd fits.1 unfinished

namespace Ordered

variable (charged : Charged d) (ordered : Ordered d)

include ordered in
theorem keep (executions : next.executionsClosed = d.executionsClosed)
    (workspaces : next.workspacesClosed = d.workspacesClosed)
    (runtime : next.runtimeClosed = d.runtimeClosed)
    (done : next.stopDone = d.stopDone) (stopErr : next.stopErr = d.stopErr)
    (cleanups : next.cleanups = d.cleanups ∨ ∃ listener serving,
      next.cleanups = d.cleanups ++ [⟨listener, serving, .setNotServing, []⟩])
    (state : next.state = .stopped ↔ d.state = .stopped)
    (stops : ∀ pc ∈ next.stops, next.Fits pc) : Ordered next := by
  have known : ∀ cleanup ∈ next.cleanups,
      cleanup ∈ d.cleanups ∨ cleanup.pc = .setNotServing := by
    intro cleanup inside
    rcases cleanups with same | ⟨listener, serving, grown⟩
    · exact .inl (same ▸ inside)
    · rw [grown] at inside
      rcases mem_append.mp inside with before | new
      · exact .inl before
      · cases mem_singleton.mp new
        exact .inr rfl
  have counts : ∀ point,
      tally (fun cleanup : Cleanup => if cleanup.Past point then 1 else 0) next.cleanups =
        tally (fun cleanup => if cleanup.Past point then 1 else 0) d.cleanups := by
    intro point
    rcases cleanups with same | ⟨listener, serving, grown⟩
    · rw [same]
    · rw [grown, tally_concat, if_neg (by exact Nat.not_lt_zero _), Nat.add_zero]
  exact {
    executions := fun cleanup inside late => by
      rw [executions]
      rcases known cleanup inside with before | fresh
      · exact ordered.executions cleanup before late
      · simp [fresh, stage] at late
    workspaces := fun cleanup inside late => by
      rw [workspaces]
      rcases known cleanup inside with before | fresh
      · exact ordered.workspaces cleanup before late
      · simp [fresh, stage] at late
    runtime := by rw [runtime, counts .closeRuntime, ordered.runtime]
    done := by rw [done, counts .finishStop, ordered.done]
    stopped := by rw [state, done, ordered.stopped]
    result := fun cleanup inside finished => by
      rw [stopErr]
      rcases known cleanup inside with before | fresh
      · exact ordered.result cleanup before finished
      · rw [fresh] at finished
        cases finished
    stops := stops }

theorem single (only : next.cleanups = [cleanup])
    (executions : cleanup.Past .closeExecutions → next.executionsClosed = true)
    (workspaces : cleanup.Past .awaitWorkspaces → next.workspacesClosed = true)
    (runtime : next.runtimeClosed = if cleanup.Past .closeRuntime then 1 else 0)
    (done : next.stopDone = if cleanup.Past .finishStop then 1 else 0)
    (stopped : next.state = .stopped ↔ cleanup.Past .finishStop)
    (result : cleanup.pc = .finished → cleanup.result = next.stopErr)
    (stops : ∀ pc ∈ next.stops, next.Fits pc) : Ordered next where
  executions := by simpa [only] using executions
  workspaces := by simpa [only] using workspaces
  runtime := by simpa [only] using runtime
  done := by simpa [only] using done
  stopped := by
    rw [stopped, done]
    split <;> simp_all
  result := by simpa [only] using result
  stops := stops

include ordered in
theorem unfinished (none : d.cleanups = []) : d.state ≠ .stopped := by
  intro stopped
  apply ordered.stopped.mp stopped
  rw [ordered.done, none]
  rfl

include charged ordered

theorem startEffect {pc pc' : StartPC} (found : d.starts[index]? = some pc)
    (effect : StartEffect d pc after pc') : Ordered (after.startGoes index pc') := by
  cases effect with
  | begin fresh =>
    refine ordered.keep rfl rfl rfl rfl rfl (.inl rfl) ?_ ?_
    · simp [startGoes, fresh]
    · intro pc inside
      cases (ordered.stops pc inside).begin (by simp [fresh]) (by simp [fresh])
      trivial
  | fail =>
    obtain ⟨_, _, none, _⟩ := charged.start_alone found rfl
    have unfinished := ordered.unfinished none
    refine ordered.keep rfl rfl rfl rfl rfl (.inl rfl) ?_ ?_
    · simp [startGoes, unfinished]
    · exact fun pc inside => (ordered.stops pc inside).stopping unfinished rfl
  | run wanted =>
    obtain ⟨_, _, none, _⟩ := charged.start_alone found rfl
    have unfinished := ordered.unfinished none
    refine ordered.keep rfl rfl rfl rfl rfl (.inl rfl) ?_ ?_
    · simp [startGoes, unfinished]
    · intro pc inside
      cases (ordered.stops pc inside).begin unfinished wanted
      trivial
  | @cleanUp _ _ listener =>
    exact ordered.keep rfl rfl rfl rfl rfl (.inr ⟨listener, false, rfl⟩) Iff.rfl ordered.stops
  | _ =>
    exact ordered.keep rfl rfl rfl rfl rfl (.inl rfl) Iff.rfl ordered.stops

omit charged in
theorem stopEffect {pc' : StopPC} (found : d.stops[index]? = some pc)
    (effect : StopEffect d reply pc after pc') : Ordered (after.stopGoes index pc') := by
  have fits := ordered.stops pc (mem_of_getElem? found)
  have others : ∀ {later : Daemon}, (∀ pc ∈ d.stops, later.Fits pc) → later.Fits pc' →
      ∀ pc'' ∈ d.stops.set index pc', later.Fits pc'' := by
    intro later before mine pc'' inside
    rcases mem_or_eq_of_mem_set inside with old | rfl
    · exact before pc'' old
    · exact mine
  have stopping : d.state ≠ .stopped →
      ∀ pc ∈ d.stops, Fits { d with state := .stopping } pc :=
    fun unfinished pc inside => (ordered.stops pc inside).stopping unfinished rfl
  cases effect with
  | move moves =>
    refine ordered.keep rfl rfl rfl rfl rfl (.inl rfl) Iff.rfl (others ordered.stops ?_)
    cases moves with
    | wait state => exact .inl state
    | read state => exact ⟨state, rfl⟩
    | cancel => exact fits
    | wake done => exact ordered.stopped.mpr done
    | result => exact ⟨fits, rfl⟩
  | fresh state | stop state =>
    refine ordered.keep rfl rfl rfl rfl rfl (.inl rfl) ?_
      (others (stopping (by simp [state])) rfl)
    simp [stopGoes, state]
  | interrupt state =>
    refine ordered.keep rfl rfl rfl rfl rfl (.inl rfl) ?_
      (others (stopping (by simp [state])) (.inl rfl))
    simp [stopGoes, state]
  | @cleanUp serving listener =>
    exact ordered.keep rfl rfl rfl rfl rfl (.inr ⟨listener, serving, rfl⟩) Iff.rfl
      (others ordered.stops (.inl fits))

theorem cleanupEffect {err : GoError} (found : d.cleanups[index]? = some cleanup)
    (effect : CleanupEffect d cleanup after pc') (last : pc' = .finished → err = []) :
    Ordered (after.cleanupGoes index cleanup pc' err) := by
  obtain ⟨rfl, only, _, uncharged, _⟩ := charged.cleanup_alone found
  have cleanups := effect.single only err
  have executions := ordered.executions cleanup (mem_of_getElem? found)
  have workspaces := ordered.workspaces cleanup (mem_of_getElem? found)
  have runtime := ordered.runtime
  have done := ordered.done
  have stopped := ordered.stopped
  rw [only, tally_cons, tally_nil] at runtime done
  cases effect with
  | setNotServing at_ | closeExecutions at_ | clearWorkspaces at_ | awaitWorkspaces at_
  | stopGrpc at_ | skipGrpc at_ | drainGrpc at_ | closeListener at_ | closeRuntime at_ =>
    apply single cleanups
    · simp_all [stage, cleanupGoes, closeListener]
    · simp_all [stage, cleanupGoes, closeListener]
    · simp_all [stage, cleanupGoes, closeListener]
    · simp_all [stage, cleanupGoes, closeListener]
    · simp_all [stage, cleanupGoes, closeListener]
    · nofun
    · exact ordered.stops
  | finishStop at_ =>
    simp only [Cleanup.Past, at_, stage] at executions workspaces runtime done
    have unfinished : d.state ≠ .stopped := by
      intro equal
      exact stopped.mp equal (by simpa using done)
    cases last rfl
    have finishes : d.finishStop cleanup.result = { d with
          stopErr := cleanup.result
          state := .stopped
          stopDone := d.stopDone + 1 } := if_neg unfinished
    rw [finishes] at cleanups ⊢
    apply single cleanups
    · exact fun _ => executions (by decide)
    · exact fun _ => workspaces (by decide)
    · simpa [stage, cleanupGoes] using runtime
    · simpa [stage, cleanupGoes] using done
    · simp [stage, cleanupGoes]
    · exact fun _ => append_nil cleanup.result
    · intro pc inside
      have fits := ordered.stops pc inside
      cases pc with
      | begin => trivial
      | cleanUp => cases uncharged _ inside
      | waiting | cancelled => exact .inr rfl
      | stopResult => exact absurd fits unfinished
      | returned => exact absurd fits.1 unfinished

theorem step (taken : d.step action = some next) : Ordered next := by
  cases Effect.of_step taken with
  | callStart | requestShutdown =>
    exact ordered.keep rfl rfl rfl rfl rfl (.inl rfl) Iff.rfl ordered.stops
  | start found effect =>
    exact ordered.startEffect charged found effect
  | callStop =>
    refine ordered.keep rfl rfl rfl rfl rfl (.inl rfl) Iff.rfl fun pc inside => ?_
    rcases mem_append.mp inside with before | new
    · exact ordered.stops pc before
    · cases mem_singleton.mp new
      trivial
  | stop found effect => exact ordered.stopEffect found effect
  | cleanup found effect last =>
    exact ordered.cleanupEffect charged found effect last

end Ordered

theorem ordered_new : Ordered new where
  executions := nofun
  workspaces := nofun
  runtime := rfl
  done := rfl
  stopped := by decide
  result := nofun
  stops := nofun

theorem sound_reached (run : Reaches step new d) : Charged d ∧ Ordered d := by
  apply run.invariant
  · exact ⟨charged_new, ordered_new⟩
  · intro d action next sound _ taken
    exact ⟨sound.1.step taken, sound.2.step sound.1 taken⟩

end Daemon

end Ferretd.Daemons

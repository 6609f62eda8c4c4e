import Ferretd.Library.Machine
import Ferretd.Exec.Execution

/-!
# The one-shot execution machine

One execution together with its runner, the owner of its close operation, and any number of
callers, subscribers and readers.  It publishes at most three events, so a buffer of eight
never fills.
-/

namespace Ferretd.Exec

open Library Library.Broadcast List

/-- `opened` counts the Universal sessions that were handed to the execution and
`closes` the calls of their `Close`. -/
structure ExecutionMachine where
  execution : Execution
  runners : List RunPC
  runs : Nat
  closer : Option ClosePC
  opened : Nat
  closes : Nat

inductive ExecutionAction where
  | start (ctxErr : GoError)
  | cancel
  | run (index : Nat) (answer : Answer)
  | beginClose
  | close (answer : Answer)
  | subscribe (handle : Nat)
  | unsubscribe (handle : Nat)
  | readEvent (handle : Nat)
  | readError (handle : Nat)

namespace ExecutionMachine

def init (id : Nat) (target : RuntimeTarget) (input : RuntimeInput)
    (materialize : GoError → RuntimeFailure) : ExecutionMachine where
  execution := .newExecution id (newExecutionRuntime target input materialize)
  runners := []
  runs := 0
  closer := none
  opened := 0
  closes := 0

variable (m : ExecutionMachine)

def watch (action : Hub Event Cause → Hub Event Cause) : ExecutionMachine :=
  { m with
    execution :=
      { m.execution with watchers := action m.execution.watchers } }

/-- `beginClose` together with the start of the goroutine that settles the close. -/
def beginClose : ExecutionMachine :=
  { m with
    execution := m.execution.beginClose.2
    closer := some .cancel }

def step :
    ExecutionAction → Option ExecutionMachine
  | .start ctxErr =>
    match m.execution.start ctxErr with
    | .error _ => some m
    | .ok (_, started) =>
      some { m with
        execution := started
        runners := m.runners ++ [.newSession]
        runs := m.runs + 1 }
  | .cancel => some { m with execution := m.execution.cancel }
  | .run index answer =>
    match m.runners[index]? with
    | none => none
    | some (.finish result) =>
      some { m with
        execution := m.execution.finish result
        runners := m.runners.eraseIdx index }
    | some pc =>
      match runStep m.execution.runtime answer pc with
      | none => none
      | some (runtime, pc', closed) =>
        some { m with
          execution := { m.execution with runtime := runtime }
          runners := m.runners.set index pc'
          opened := m.opened + pc.opened answer
          closes := m.closes + closed.toList.length }
  | .beginClose =>
    if m.execution.beginClose.1 then some m.beginClose else some m
  | .close answer =>
    match m.closer with
    | none => none
    | some (.complete err) =>
      match m.execution.completeClose err with
      | .error _ => none
      | .ok closed => some { m with execution := closed, closer := none }
    | some pc =>
      match settleStep m.execution answer pc with
      | none => none
      | some (settled, pc', closed) =>
        some { m with
          execution := settled
          closer := some pc'
          closes := m.closes + closed.toList.length }
  | .subscribe handle =>
    if (m.execution.watchers handle).isSome then
      none
    else
      some { m with execution := m.execution.subscribe handle }
  | .unsubscribe handle => some (m.watch (·.modify handle Subscriber.cancel))
  | .readEvent handle => some (m.watch (·.modify handle Subscriber.readEvent))
  | .readError handle => some (m.watch (·.modify handle Subscriber.readError))

end ExecutionMachine

/-! ## What a step can do -/

/-- The effects of a step, one constructor for each kind of critical section. -/
inductive Effect (m : ExecutionMachine) :
    ExecutionAction → ExecutionMachine → Prop
  | keep {action : ExecutionAction} : Effect m action m
  | start {ctxErr : GoError} {snapshot : ExecutionSnapshot} {started : Execution}
      (accepted : m.execution.start ctxErr = .ok (snapshot, started)) :
      Effect m (.start ctxErr) { m with
          execution := started
          runners := m.runners ++ [.newSession]
          runs := m.runs + 1 }
  | cancel : Effect m .cancel { m with execution := m.execution.cancel }
  | finish {index : Nat} {answer : Answer} {result : RunResult}
      (runner : m.runners[index]? = some (.finish result)) :
      Effect m (.run index answer) { m with
          execution := m.execution.finish result
          runners := m.runners.eraseIdx index }
  | run {index : Nat} {pc : RunPC} {answer : Answer} {runtime : ExecutionRuntime} {pc' : RunPC}
      {closed : Option Nat}
      (runner : m.runners[index]? = some pc)
      (taken : runStep m.execution.runtime answer pc = some (runtime, pc', closed)) :
      Effect m (.run index answer) { m with
          execution := { m.execution with runtime := runtime }
          runners := m.runners.set index pc'
          opened := m.opened + pc.opened answer
          closes := m.closes + closed.toList.length }
  | beginClose (idle : m.execution.close.state = .idle) :
      Effect m .beginClose m.beginClose
  | settle {pc : ClosePC} {answer : Answer} {settled} {pc' : ClosePC} {closed : Option Nat}
      (closer : m.closer = some pc)
      (taken : settleStep m.execution answer pc = some (settled, pc', closed)) :
      Effect m (.close answer) { m with
          execution := settled
          closer := some pc'
          closes := m.closes + closed.toList.length }
  | complete {err close} {answer : Answer} (closer : m.closer = some (.complete err))
      (finished : m.execution.close.finish err = .ok close) :
      Effect m (.close answer) { m with
          execution := { m.execution with close := close }
          closer := none }
  | subscribe {handle} (new : m.execution.watchers handle = none) :
      Effect m (.subscribe handle)
        { m with execution := m.execution.subscribe handle }
  | reader {op} {action : ExecutionAction} {handle} (allowed : Subscriber.ReaderAction op) :
      Effect m action (m.watch (·.modify handle op))

variable {m next : ExecutionMachine} {action : ExecutionAction} {other e settled : Execution}
  {watcher : Subscriber Event Cause} {pc : ClosePC} {closed : Option Nat} {answer : Answer}
  {target : RuntimeTarget} {input : RuntimeInput} {materialize : GoError → RuntimeFailure}
  {id : Nat} {before after : State}

theorem Effect.of_step (taken : m.step action = some next) :
    Effect m action next := by
  cases action with
  | start ctxErr =>
    simp only [ExecutionMachine.step] at taken
    split at taken
    · cases taken
      exact Effect.keep
    next accepted =>
      cases taken
      exact Effect.start accepted
  | cancel =>
    cases taken
    exact Effect.cancel
  | run index answer =>
    simp only [ExecutionMachine.step] at taken
    split at taken
    · cases taken
    next runner =>
      cases taken
      exact Effect.finish runner
    rename_i pc _ runner
    split at taken
    · cases taken
    next advanced =>
      cases taken
      exact Effect.run runner advanced
  | beginClose =>
    simp only [ExecutionMachine.step] at taken
    split at taken
    next begun =>
      cases taken
      apply Effect.beginClose
      by_contra busy
      simp [Execution.beginClose, CloseOperation.begin_of_started busy] at begun
    · cases taken
      exact Effect.keep
  | close answer =>
    simp only [ExecutionMachine.step] at taken
    split at taken
    · cases taken
    next err closer =>
      cases finished : m.execution.close.finish err with
      | error => simp [Execution.completeClose, finished, Except.map] at taken
      | ok close =>
        simp only [Execution.completeClose, finished, Except.map] at taken
        cases taken
        exact Effect.complete closer finished
    next pc _ closer =>
      split at taken
      · cases taken
      next settled =>
        cases taken
        exact Effect.settle closer settled
  | subscribe handle =>
    simp only [ExecutionMachine.step] at taken
    split at taken
    · cases taken
    next new =>
      cases taken
      exact Effect.subscribe (by simpa using new)
  | unsubscribe handle =>
    cases taken
    exact Effect.reader Subscriber.ReaderAction.cancel
  | readEvent handle =>
    cases taken
    exact Effect.reader Subscriber.ReaderAction.readEvent
  | readError handle =>
    cases taken
    exact Effect.reader Subscriber.ReaderAction.readError

/-! ## Watching -/

structure Watches (e : Execution)
    (watcher : Subscriber Event Cause) : Prop where
  tracks :
    watcher.Tracks Event.sequence Event.terminal .execWatcherLagged
      watcherBufferSize e.sequence
  quiet : watcher.reported = []
  kinds : ∀ event ∈ watcher.current :: watcher.placed, event.KindAgrees
  latest :
    watcher.cancelled = false →
      (watcher.current :: watcher.placed).getLast? = some e.lastEvent
  positive : 1 ≤ watcher.current.sequence
  registeredIff : watcher.registered = (!watcher.cancelled && !e.state.terminal)

def AllWatch (e : Execution) : Prop :=
  ∀ handle watcher, e.watchers handle = some watcher → Watches e watcher

namespace Watches

section

variable (watches : Watches e watcher)
include watches

theorem congr (sequence : other.sequence = e.sequence) (lastEvent : other.lastEvent = e.lastEvent)
    (state : other.state = e.state) : Watches other watcher := by
  obtain ⟨tracks, quiet, kinds, latest, positive, registeredIff⟩ := watches
  exact ⟨sequence ▸ tracks, quiet, kinds, lastEvent ▸ latest, positive, state ▸ registeredIff⟩

theorem readEvent : Watches e watcher.readEvent := by
  have placed := Subscriber.placed_readEvent watcher
  obtain ⟨current, registered, cancelled, reported, _⟩ :=
    Subscriber.readEvent_frame watcher
  obtain ⟨tracks, quiet, kinds, latest, positive, registeredIff⟩ := watches
  refine ⟨tracks.readEvent, reported.trans quiet, ?_, ?_, ?_, ?_⟩
  · rw [placed, current]
    exact kinds
  · rw [placed, current, cancelled]
    exact latest
  · rw [current]
    exact positive
  · rw [registered, cancelled]
    exact registeredIff

theorem readError : watcher.readError = watcher := by
  have empty : watcher.errors.buffer = [] := by
    have quiet := watches.quiet
    simp only [Subscriber.reported, append_eq_nil_iff] at quiet
    exact quiet.2
  simp [Subscriber.readError, empty]

theorem cancel : Watches e watcher.cancel := by
  have placed := Subscriber.placed_cancel watcher
  have gone : watcher.cancelled = true → watcher.registered = false := by
    intro cancelled
    simpa [cancelled] using watches.registeredIff
  obtain ⟨current, registered, cancelled, reported, _⟩ :=
    Subscriber.cancel_frame watcher watches.tracks.closedIff gone
  refine ⟨watches.tracks.cancel, reported.trans watches.quiet, ?_, ?_, ?_, ?_⟩
  · rw [placed, current]
    exact watches.kinds
  · simp [cancelled]
  · rw [current]
    exact watches.positive
  · simp [cancelled, registered]

theorem release (ended : e.state.terminal = true) : watcher.release = watcher := by
  have unregistered : watcher.registered = false := by
    simpa [ended] using watches.registeredIff
  simp [Subscriber.release, unregistered]

theorem notFull (early : e.sequence ≤ 2) (registered : watcher.registered = true) :
    watcher.events.isFull = false := by
  have waiting := watches.tracks.buffer_length_le
  have positive := watches.positive
  have capacity := watches.tracks.capacityEq registered
  simp only [Chan.isFull, capacity, watcherBufferSize, decide_eq_false_iff_not]
  omega

end

/-- Publishing the state that an execution has moved to.  `moved` is the execution
before the publication, with its new state and result already stored. -/
theorem publish (moved : Execution) (watches : Watches e watcher)
    (open_ : e.state.terminal = false) (early : e.sequence ≤ 2)
    (sequence : moved.sequence = e.sequence) :
    Watches (moved.publishLocked moved.state.kind moved.state.terminal)
      (watcher.offer .execWatcherLagged moved.state.terminal
        (moved.nextEvent moved.state.kind)) := by
  let event := moved.nextEvent moved.state.kind
  have next : event.sequence = e.sequence + 1 := by
    show moved.sequence + 1 = e.sequence + 1
    rw [sequence]
  have tracks :
      (watcher.offer .execWatcherLagged event.terminal event).Tracks
        Event.sequence Event.terminal .execWatcherLagged watcherBufferSize
        (moved.sequence + 1) := by
    have offered := watches.tracks.offer next
    rw [← sequence] at offered
    exact offered
  cases registered : watcher.registered with
  | false =>
    have cancelled : watcher.cancelled = true := by
      simpa [open_, registered] using watches.registeredIff
    have same := Subscriber.offer_unregistered .execWatcherLagged
      moved.state.terminal event registered
    have sameTracks := Subscriber.offer_unregistered .execWatcherLagged
      event.terminal event registered
    rw [sameTracks] at tracks
    rw [same]
    refine ⟨tracks, watches.quiet, watches.kinds, ?_, watches.positive, ?_⟩
    · simp [cancelled]
    · simp [cancelled, registered]
  | true =>
    have room := watches.notFull early registered
    have kept : watcher.cancelled = false := by
      have iff := watches.registeredIff
      simp only [registered, open_, Bool.not_false, Bool.and_true] at iff
      simpa using iff.symm
    have opened : watcher.closed = false := by
      simpa [registered] using watches.tracks.closedIff
    have quiet : watcher.receivedErrors = [] ∧ watcher.errors.buffer = [] := by
      simpa [Subscriber.reported] using watches.quiet
    have placed :
        (watcher.offer .execWatcherLagged moved.state.terminal event).placed =
          watcher.placed ++ [event] := by
      cases moved.state.terminal <;>
        simp [Subscriber.offer, registered, room, Subscriber.closeWatcher, opened,
          Subscriber.placed, Chan.send, Chan.close]
    have current :
        (watcher.offer .execWatcherLagged moved.state.terminal event).current =
          watcher.current := by
      cases moved.state.terminal <;>
        simp [Subscriber.offer, registered, room]
    refine ⟨tracks, ?_, ?_, ?_, ?_, ?_⟩
    · cases moved.state.terminal <;>
        simp [Subscriber.offer, registered, room, Subscriber.closeWatcher, opened,
          Subscriber.reported, Chan.close, quiet]
    · intro observed member
      rw [placed, current, ← cons_append] at member
      rcases mem_append.mp member with before | new
      · exact watches.kinds observed before
      · rw [mem_singleton.mp new]
        rfl
    · intro _
      rw [placed, current, ← cons_append]
      exact getLast?_concat
    · rw [current]
      exact watches.positive
    · cases terminal : moved.state.terminal <;>
        simp [Subscriber.offer, registered, room, Subscriber.closeWatcher, opened,
          kept, terminal, Execution.publishLocked]

end Watches

namespace AllWatch

theorem congr (watched : AllWatch e) (watchers : other.watchers = e.watchers)
    (sequence : other.sequence = e.sequence) (lastEvent : other.lastEvent = e.lastEvent)
    (state : other.state = e.state) : AllWatch other := by
  intro handle watcher found
  rw [watchers] at found
  exact (watched handle watcher found).congr sequence lastEvent state

theorem publish (moved : Execution) (watched : AllWatch e)
    (open_ : e.state.terminal = false) (early : e.sequence ≤ 2)
    (watchers : moved.watchers = e.watchers) (sequence : moved.sequence = e.sequence) :
    AllWatch (moved.publishLocked moved.state.kind moved.state.terminal) := by
  intro handle watcher found
  simp only [Execution.publishLocked, Hub.publish, watchers, Option.map_eq_some_iff] at found
  obtain ⟨before, foundBefore, rfl⟩ := found
  exact (watched handle before foundBefore).publish moved open_ early sequence

theorem modify {action : Subscriber Event Cause → Subscriber Event Cause}
    (watched : AllWatch e) (handle : Nat)
    (kept : ∀ watcher, Watches e watcher → Watches e (action watcher)) :
    AllWatch { e with
      watchers := e.watchers.modify handle action } := by
  intro other watcher found
  have watches :=
    Hub.forall_modify e.watchers watched kept other watcher found
  exact watches.congr rfl rfl rfl

theorem releaseWatchers (watched : AllWatch e) (ended : e.state.terminal = true) :
    AllWatch e.releaseWatchers := by
  intro handle watcher found
  simp only [Execution.releaseWatchers, Hub.releaseAll, Option.map_eq_some_iff] at found
  obtain ⟨before, foundBefore, rfl⟩ := found
  have watches := watched handle before foundBefore
  rw [watches.release ended]
  exact watches.congr rfl rfl rfl

end AllWatch

/-! ## The invariant -/

/-- How far an execution has come, and which goroutine runs it. -/
inductive Phase (m : ExecutionMachine) : Prop
  | created :
      m.execution.state = .created →
      m.execution.sequence = 1 →
      m.runners = [] →
      m.runs = 0 →
      Phase m
  | running (pc : RunPC) :
      m.execution.state = .running →
      m.execution.sequence = 2 →
      m.runners = [pc] →
      pc.Categorized →
      m.runs = 1 →
      Phase m
  | ended :
      m.execution.state.terminal = true →
      1 ≤ m.execution.sequence →
      m.execution.sequence ≤ 3 →
      m.runners = [] →
      m.runs ≤ 1 →
      Phase m

structure Results (e : Execution) : Prop where
  runDone : e.runDone = if e.state.terminal then 1 else 0
  absent : e.state.terminal = false → e.output = none ∧ e.failure = none
  failure : e.failure.isSome = true ↔ e.state = .failed
  category : ∀ failure, e.failure = some failure → failure.category ≠ .unspecified
  lastSequence : e.lastEvent.sequence = e.sequence
  lastState : e.lastEvent.snapshot.state = e.state
  lastKind : e.lastEvent.KindAgrees

/-- The owner of the close operation has passed `<-e.runDone`. -/
def ClosePC.awaited : ClosePC → Bool
  | .cancel | .awaitRun => false
  | _ => true

structure ExecutionInvariant (m : ExecutionMachine) : Prop where
  phase : Phase m
  results : Results m.execution
  watched : AllWatch m.execution
  settled :
    ∀ pc, m.closer = some pc → pc.awaited = true → m.execution.state.terminal = true

namespace Results

theorem congr (results : Results e) (state : other.state = e.state)
    (output : other.output = e.output) (failure : other.failure = e.failure)
    (runDone : other.runDone = e.runDone) (sequence : other.sequence = e.sequence)
    (lastEvent : other.lastEvent = e.lastEvent) : Results other := by
  constructor
  · rw [runDone, state]
    exact results.runDone
  · rw [state, output, failure]
    exact results.absent
  · rw [state, failure]
    exact results.failure
  · rw [failure]
    exact results.category
  · rw [lastEvent, sequence]
    exact results.lastSequence
  · rw [lastEvent, state]
    exact results.lastState
  · rw [lastEvent]
    exact results.lastKind

theorem publish (moved : Execution) (notDone : moved.runDone = 0)
    (absent : moved.state.terminal = false → moved.output = none ∧ moved.failure = none)
    (failure : moved.failure.isSome = true ↔ moved.state = .failed)
    (category : ∀ failure, moved.failure = some failure → failure.category ≠ .unspecified) :
    Results (moved.publishLocked moved.state.kind moved.state.terminal) where
  runDone := by simp [Execution.publishLocked, notDone]
  absent := absent
  failure := failure
  category := category
  lastSequence := rfl
  lastState := rfl
  lastKind := rfl

end Results

namespace ExecutionInvariant

section

variable {ctxErr : GoError} {snapshot : ExecutionSnapshot} {started : Execution} {index : Nat}
  {result : RunResult} {runtime : ExecutionRuntime} (invariant : ExecutionInvariant m)
include invariant

section

variable (open_ : m.execution.state.terminal = false)
include open_

theorem early : m.execution.sequence ≤ 2 := by
  cases invariant.phase with
  | created | running => omega
  | ended terminal => simp [open_] at terminal

theorem notDone : m.execution.runDone = 0 := by
  simpa [open_] using invariant.results.runDone

theorem notAwaited (closer : m.closer = some pc) : pc.awaited = false := by
  cases awaited : pc.awaited with
  | false => rfl
  | true =>
    have ended := invariant.settled pc closer awaited
    simp [open_] at ended

end

theorem congr {other : ExecutionMachine} (state : other.execution.state = m.execution.state)
    (output : other.execution.output = m.execution.output)
    (failure : other.execution.failure = m.execution.failure)
    (runDone : other.execution.runDone = m.execution.runDone)
    (sequence : other.execution.sequence = m.execution.sequence)
    (lastEvent : other.execution.lastEvent = m.execution.lastEvent)
    (watched : AllWatch other.execution) (runners : other.runners = m.runners)
    (runs : other.runs = m.runs) (settled : ∀ pc, other.closer = some pc → pc.awaited = true →
      other.execution.state.terminal = true) :
    ExecutionInvariant other := by
  refine ⟨?_, invariant.results.congr state output failure runDone sequence lastEvent,
    watched, settled⟩
  cases invariant.phase with
  | created created sequenceEq none count =>
    exact .created (state.trans created) (sequence.trans sequenceEq)
      (runners.trans none) (runs.trans count)
  | running pc running sequenceEq one categorized count =>
    exact .running pc (state.trans running) (sequence.trans sequenceEq)
      (runners.trans one) categorized (runs.trans count)
  | ended terminal positive bound none count =>
    exact .ended (state ▸ terminal) (sequence ▸ positive) (sequence ▸ bound)
      (runners.trans none) (runs ▸ count)

theorem start (accepted : m.execution.start ctxErr = .ok (snapshot, started)) :
    m.execution.state = .created ∧ started.state = .running ∧
      ExecutionInvariant { m with
        execution := started
        runners := m.runners ++ [.newSession]
        runs := m.runs + 1 } := by
  unfold Execution.start at accepted
  split at accepted
  · cases accepted
  split at accepted
  next created =>
    cases accepted
    have open_ : m.execution.state.terminal = false := by
      rw [created]
      rfl
    obtain ⟨noOutput, noFailure⟩ := invariant.results.absent open_
    refine ⟨created, rfl, ?_, ?_, ?_, ?_⟩
    · cases invariant.phase with
      | created _ sequence none count =>
        refine .running .newSession rfl ?_ ?_ trivial ?_
        · simp [Execution.publishLocked, sequence]
        · simp [none]
        · simp [count]
      | running _ running => simp [created] at running
      | ended terminal => simp [open_] at terminal
    · apply Results.publish { m.execution with state := .running }
      · exact invariant.notDone open_
      · intro _
        exact ⟨noOutput, noFailure⟩
      · simp [noFailure]
      · simp [noFailure]
    · exact AllWatch.publish { m.execution with state := .running }
        invariant.watched open_ (invariant.early open_) rfl rfl
    · intro pc closer awaited
      have early := invariant.notAwaited open_ closer
      simp [early] at awaited
  · cases accepted
  · cases accepted

theorem publishEnd (open_ : m.execution.state.terminal = false)
    (moved : Execution) (ended : moved.state.terminal = true)
    (watchers : moved.watchers = m.execution.watchers)
    (sequence : moved.sequence = m.execution.sequence)
    (runDone : moved.runDone = m.execution.runDone)
    (failure : moved.failure.isSome = true ↔ moved.state = .failed)
    (category : ∀ failure, moved.failure = some failure → failure.category ≠ .unspecified) :
    ExecutionInvariant { m with
      execution := moved.publishLocked moved.state.kind moved.state.terminal
      runners := [] } := by
  have early := invariant.early open_
  refine ⟨?_, ?_, ?_, ?_⟩
  · refine .ended ended (Nat.le_add_left 1 _) ?_ rfl ?_
    · show moved.sequence + 1 ≤ 3
      omega
    cases invariant.phase with
    | created _ _ _ count | running _ _ _ _ _ count => simp [count]
    | ended _ _ _ _ count => exact count
  · apply Results.publish
    · rw [runDone]
      exact invariant.notDone open_
    · simp [ended]
    · exact failure
    · exact category
  · exact AllWatch.publish moved invariant.watched open_ early watchers sequence
  · intro pc _ _
    exact ended

theorem cancel : ExecutionInvariant { m with execution := m.execution.cancel } := by
  cases state : m.execution.state with
  | created =>
    have open_ : m.execution.state.terminal = false := by
      rw [state]
      rfl
    have noFailure := (invariant.results.absent open_).2
    have none : m.runners = [] := by
      cases invariant.phase with
      | created _ _ none => exact none
      | running _ running => simp [state] at running
      | ended terminal => simp [open_] at terminal
    have cancelled :=
      invariant.publishEnd open_ { m.execution with
          runtime := m.execution.runtime.cancel
          state := .cancelled }
        rfl rfl rfl rfl (by simp [noFailure]) (by simp [noFailure])
    rw [← none] at cancelled
    simp only [Execution.cancel, state]
    exact cancelled
  | running =>
    have same : m.execution.cancel =
        { m.execution with runtime := m.execution.runtime.cancel } := by
      simp [Execution.cancel, state]
    rw [same]
    exact invariant.congr rfl rfl rfl rfl rfl rfl
      (invariant.watched.congr rfl rfl rfl rfl) rfl rfl invariant.settled
  | _ => simpa only [Execution.cancel, state] using invariant

theorem finish (runner : m.runners[index]? = some (.finish result)) :
    m.execution.state = .running ∧ ExecutionInvariant { m with
        execution := m.execution.finish result
        runners := m.runners.eraseIdx index } := by
  cases invariant.phase with
  | created _ _ none | ended _ _ _ none => simp [none] at runner
  | running pc running _ one categorized =>
    have only : index = 0 ∧ pc = .finish result := by
      rw [one] at runner
      cases index <;> simp_all
    obtain ⟨rfl, rfl⟩ := only
    have open_ : m.execution.state.terminal = false := by
      rw [running]
      rfl
    have noFailure := (invariant.results.absent open_).2
    have erased : m.runners.eraseIdx 0 = [] := by
      rw [one]
      rfl
    rw [erased]
    refine ⟨running, ?_⟩
    unfold Execution.finish
    rw [if_neg (by simp [running])]
    dsimp only
    split
    · exact invariant.publishEnd open_
        { m.execution with output := result.output, state := .completed }
        rfl rfl rfl rfl (by simp [noFailure]) (by simp [noFailure])
    split
    · exact invariant.publishEnd open_
        { m.execution with output := result.output, state := .cancelled }
        rfl rfl rfl rfl (by simp [noFailure]) (by simp [noFailure])
    apply invariant.publishEnd open_ { m.execution with
        output := result.output
        state := .failed
        failure := some ⟨result.category, m.execution.runtime.materialize result.err⟩ }
      rfl rfl rfl rfl
    · simp
    · intro failure stored
      have category : result.category ≠ .unspecified := categorized
      cases stored
      exact category

theorem runStep {pc pc' : RunPC} (runner : m.runners[index]? = some pc)
    (taken : runStep m.execution.runtime answer pc = some (runtime, pc', closed)) :
    ExecutionInvariant { m with
      execution := { m.execution with runtime := runtime }
      runners := m.runners.set index pc'
      opened := m.opened + pc.opened answer
      closes := m.closes + closed.toList.length } := by
  refine ⟨?_, invariant.results.congr rfl rfl rfl rfl rfl rfl,
    invariant.watched.congr rfl rfl rfl rfl, invariant.settled⟩
  cases invariant.phase with
  | created _ _ none | ended _ _ _ none => simp [none] at runner
  | running _ running sequence one _ count =>
    have only : index = 0 := by
      rw [one] at runner
      cases index <;> simp_all
    subst only
    refine .running pc' running sequence ?_ (runStep_categorized taken) count
    simp [one]

theorem settleStep {pc' : ClosePC} (closer : m.closer = some pc)
    (taken : settleStep m.execution answer pc = some (settled, pc', closed)) :
    ExecutionInvariant { m with
      execution := settled
      closer := some pc'
      closes := m.closes + closed.toList.length } := by
  cases pc with
  | cancel =>
    cases taken
    have cancelled := invariant.cancel
    refine cancelled.congr rfl rfl rfl rfl rfl rfl cancelled.watched rfl rfl ?_
    intro pc known awaited
    cases known
    cases awaited
  | awaitRun =>
    simp only [Exec.settleStep] at taken
    split at taken
    · cases taken
    rename_i done
    cases taken
    have ended : m.execution.state.terminal = true := by
      by_contra open_
      exact done (invariant.notDone (by simpa using open_))
    exact invariant.congr rfl rfl rfl rfl rfl rfl invariant.watched rfl rfl fun _ _ _ => ended
  | enterClose =>
    have ended := invariant.settled .enterClose closer rfl
    simp only [Exec.settleStep] at taken
    split at taken
    · cases taken
    · cases taken
      exact invariant.congr rfl rfl rfl rfl rfl rfl
        (invariant.watched.congr rfl rfl rfl rfl) rfl rfl fun _ _ _ => ended
    · cases taken
      exact invariant.congr rfl rfl rfl rfl rfl rfl
        (invariant.watched.congr rfl rfl rfl rfl) rfl rfl fun _ _ _ => ended
  | returnClose =>
    have ended := invariant.settled .returnClose closer rfl
    cases taken
    exact invariant.congr rfl rfl rfl rfl rfl rfl
      (invariant.watched.congr rfl rfl rfl rfl) rfl rfl fun _ _ _ => ended
  | releaseWatchers err =>
    have ended := invariant.settled (.releaseWatchers err) closer rfl
    cases taken
    exact invariant.congr rfl rfl rfl rfl rfl rfl
      (invariant.watched.releaseWatchers ended) rfl rfl fun _ _ _ => ended
  | complete => cases taken

theorem positive : 1 ≤ m.execution.sequence := by
  cases invariant.phase with
  | created | running => omega
  | ended _ positive => exact positive

theorem subscribe (handle : Nat) : ExecutionInvariant { m with
      execution := m.execution.subscribe handle } := by
  have results := invariant.results
  have first : 1 ≤ m.execution.lastEvent.sequence := by
    rw [results.lastSequence]
    exact invariant.positive
  have subscribed : AllWatch (m.execution.subscribe handle) := by
    intro other watcher found
    suffices watches : Watches m.execution watcher from
      watches.congr rfl rfl rfl
    revert other watcher
    apply Hub.forall_insert _ invariant.watched
    cases ended : m.execution.state.terminal with
    | true =>
      have terminal : m.execution.lastEvent.terminal = true := by
        unfold Event.terminal
        rw [results.lastState]
        exact ended
      refine ⟨Subscriber.tracks_late results.lastSequence terminal, rfl, ?_,
        fun _ => rfl, first, ?_⟩
      · intro event member
        rw [mem_singleton.mp member]
        exact results.lastKind
      · simp [Subscriber.late, ended]
    | false =>
      refine ⟨Subscriber.tracks_live results.lastSequence, rfl, ?_, fun _ => rfl, first, ?_⟩
      · intro event member
        rw [mem_singleton.mp member]
        exact results.lastKind
      · simp [Subscriber.live, ended]
  exact invariant.congr rfl rfl rfl rfl rfl rfl subscribed rfl rfl invariant.settled

theorem watch (handle : Nat) {action : Subscriber Event Cause → Subscriber Event Cause}
    (kept : ∀ watcher, Watches m.execution watcher →
      Watches m.execution (action watcher)) :
    ExecutionInvariant (m.watch (·.modify handle action)) :=
  invariant.congr rfl rfl rfl rfl rfl rfl (invariant.watched.modify handle kept)
    rfl rfl invariant.settled

end

end ExecutionInvariant

theorem executionInvariant_init (id : Nat) (target : RuntimeTarget)
    (input : RuntimeInput) (materialize : GoError → RuntimeFailure) :
    ExecutionInvariant (.init id target input materialize) := by
  refine ⟨.created rfl rfl rfl rfl, ?_, ?_, ?_⟩
  · constructor <;> simp [ExecutionMachine.init, Execution.newExecution,
      Execution.publishLocked, Execution.nextEvent, Execution.snapshotLocked,
      State.terminal, Event.KindAgrees, State.kind]
  · intro handle watcher found
    simp [ExecutionMachine.init, Execution.newExecution, Execution.publishLocked,
      Hub.publish] at found
  · simp [ExecutionMachine.init]

theorem executionInvariant_step (invariant : ExecutionInvariant m)
    (taken : m.step action = some next) : ExecutionInvariant next := by
  cases Effect.of_step taken with
  | keep => exact invariant
  | start accepted => exact (invariant.start accepted).2.2
  | cancel => exact invariant.cancel
  | finish runner => exact (invariant.finish runner).2
  | run runner advanced =>
    exact invariant.runStep runner advanced
  | beginClose =>
    refine invariant.congr rfl rfl rfl rfl rfl rfl
      (invariant.watched.congr rfl rfl rfl rfl) rfl rfl ?_
    intro pc known awaited
    cases known
    cases awaited
  | settle closer advanced =>
    exact invariant.settleStep closer advanced
  | complete closer =>
    have ended := invariant.settled _ closer rfl
    exact invariant.congr rfl rfl rfl rfl rfl rfl
      (invariant.watched.congr rfl rfl rfl rfl) rfl rfl fun _ _ _ => ended
  | @subscribe handle => exact invariant.subscribe handle
  | @reader _ _ handle allowed =>
    apply invariant.watch handle
    intro watcher watches
    cases allowed with
    | cancel => exact watches.cancel
    | readEvent => exact watches.readEvent
    | readError =>
      rw [watches.readError]
      exact watches

theorem executionInvariant_reaches (reached : Reaches ExecutionMachine.step
      (.init id target input materialize) m) : ExecutionInvariant m :=
  reached.invariant (executionInvariant_init id target input materialize)
    fun _ _ _ invariant _ taken => executionInvariant_step invariant taken

/-! ## One-shot executions -/

inductive State.Follows : State → State → Prop
  | stay (state : State) : Follows state state
  | start : Follows .created .running
  | abandon : Follows .created .cancelled
  | complete : Follows .running .completed
  | fail : Follows .running .failed
  | stop : Follows .running .cancelled

theorem State.Follows.eq_of_terminal
    (follows : before.Follows after) (terminal : before.terminal = true) :
    after = before := by
  cases follows with
  | stay => rfl
  | _ => cases terminal

theorem State.Follows.eq_created (follows : before.Follows after) (created : after = .created) :
    before = .created := by
  cases follows with
  | stay => exact created
  | _ => cases created

variable {pc' : ClosePC} (e : Execution)

theorem follows_cancel : e.state.Follows e.cancel.state := by
  cases state : e.state with
  | created =>
    simpa [Execution.cancel, state, Execution.publishLocked] using .abandon
  | _ =>
    simpa [Execution.cancel, state] using .stay _

theorem follows_finish (result : RunResult) :
    e.state.Follows (e.finish result).state := by
  unfold Execution.finish
  split
  · exact .stay _
  rename_i running
  have state : e.state = .running := by simpa using running
  rw [state]
  dsimp only
  split
  · exact .complete
  · split
    · exact .stop
    · exact .fail

theorem follows_settleStep {e : Execution}
    (taken : settleStep e answer pc = some (settled, pc', closed)) :
    e.state.Follows settled.state := by
  cases pc with
  | cancel =>
    cases taken
    exact follows_cancel e
  | awaitRun =>
    simp only [settleStep] at taken
    split at taken
    · cases taken
    · cases taken
      exact .stay _
  | enterClose =>
    simp only [settleStep] at taken
    split at taken
    · cases taken
    · cases taken
      exact .stay _
    · cases taken
      exact .stay _
  | returnClose | releaseWatchers =>
    cases taken
    exact .stay _
  | complete => cases taken

theorem follows_step (invariant : ExecutionInvariant m) (taken : m.step action = some next) :
    m.execution.state.Follows next.execution.state := by
  cases Effect.of_step taken with
  | start accepted =>
    obtain ⟨created, running, _⟩ := invariant.start accepted
    rw [created]
    simpa only [running] using .start
  | cancel => exact follows_cancel m.execution
  | @finish _ _ result => exact follows_finish m.execution result
  | settle _ advanced =>
    exact follows_settleStep advanced
  | _ => exact .stay _

/-- What a subscriber of an execution has been handed. -/
structure Delivered (e : Execution)
    (watcher : Subscriber Event Cause) : Prop where
  kinds : ∀ event ∈ watcher.current :: watcher.placed, event.KindAgrees
  consecutive :
    watcher.placed.map Event.sequence =
      List.range' (watcher.current.sequence + 1) watcher.placed.length
  neverLagged : watcher.reported = []
  complete :
    watcher.cancelled = false → e.state.terminal = true →
      (watcher.current :: watcher.placed).getLast? = some e.lastEvent ∧
        e.lastEvent.terminal = true ∧ watcher.events.closes = 1
  upToDate :
    watcher.cancelled = false → e.state.terminal = false →
      (watcher.current :: watcher.placed).getLast? = some e.lastEvent ∧
        watcher.events.closes = 0

structure OneShot (m : ExecutionMachine) : Prop where
  follows :
    ∀ action next, m.step action = some next →
      m.execution.state.Follows next.execution.state
  stays :
    m.execution.state.terminal = true →
      ∀ action next, m.step action = some next →
        next.execution.state = m.execution.state
  runAtMostOnce : m.runs ≤ 1
  runDone :
    m.execution.runDone =
      if m.execution.state.terminal then 1 else 0
  resultsAbsent :
    m.execution.state.terminal = false →
      m.execution.output = none ∧ m.execution.failure = none
  failure : m.execution.failure.isSome = true ↔ m.execution.state = .failed
  category : ∀ failure, m.execution.failure = some failure → failure.category ≠ .unspecified
  published :
    m.execution.lastEvent.KindAgrees ∧
      m.execution.lastEvent.snapshot.state = m.execution.state
  delivered :
    ∀ handle watcher, m.execution.watchers handle = some watcher →
      Delivered m.execution watcher

theorem Watches.delivered {e : Execution} (watches : Watches e watcher)
    (results : Results e) : Delivered e watcher := by
  have closes := watches.tracks.eventsCloses
  have closedIff := watches.tracks.closedIff
  refine ⟨watches.kinds, watches.tracks.consecutive, watches.quiet, ?_, ?_⟩
  · intro kept ended
    have unregistered : watcher.registered = false := by
      simpa [ended] using watches.registeredIff
    have terminal : e.lastEvent.terminal = true := by
      unfold Event.terminal
      rw [results.lastState]
      exact ended
    refine ⟨watches.latest kept, terminal, ?_⟩
    simpa [closedIff, unregistered] using closes
  · intro kept open_
    have registered : watcher.registered = true := by
      simpa [kept, open_] using watches.registeredIff
    refine ⟨watches.latest kept, ?_⟩
    simpa [closedIff, registered] using closes

/-- Every interleaving of starts, cancellations, run completions, closes,
subscriptions and reads keeps an execution one-shot and its watchers complete. -/
theorem execution_oneShot
    (reached : Reaches ExecutionMachine.step (.init id target input materialize) m) :
    OneShot m := by
  have invariant := executionInvariant_reaches reached
  have results := invariant.results
  refine ⟨?_, ?_, ?_, results.runDone, results.absent, results.failure,
    results.category, ⟨results.lastKind, results.lastState⟩, ?_⟩
  · intro action next taken
    exact follows_step invariant taken
  · intro terminal action next taken
    exact (follows_step invariant taken).eq_of_terminal terminal
  · cases invariant.phase with
    | created | running => omega
    | ended _ _ _ _ count => exact count
  · intro handle watcher found
    exact (invariant.watched handle watcher found).delivered results

def completedSchedule : List ExecutionAction :=
  [.subscribe 0, .start [], .run 0 (.returning 7), .run 0 .quiet, .run 0 .quiet,
    .run 0 .quiet, .run 0 .quiet, .readEvent 0, .beginClose, .close .quiet]

theorem execution_oneShot_completed :
    ∃ m,
      Reaches ExecutionMachine.step
        (.init 0 ⟨1, some 2⟩ ⟨[], ⟨"application/json", ""⟩⟩ fun _ => ⟨"failed", []⟩) m ∧
        m.execution.state = .completed ∧ OneShot m := by
  have passed :
      (execute ExecutionMachine.step (.init 0 ⟨1, some 2⟩ ⟨[], ⟨"application/json", ""⟩⟩
          fun _ => ⟨"failed", []⟩) completedSchedule).map
        (fun m => decide (m.execution.state = .completed)) =
      some true := by
    decide
  obtain ⟨m, reached, completed⟩ := exists_reaches_of_test passed
  exact ⟨m, reached, of_decide_eq_true completed, execution_oneShot reached⟩

end Ferretd.Exec

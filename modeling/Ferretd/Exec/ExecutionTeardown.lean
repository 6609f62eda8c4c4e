import Ferretd.Library.Tally
import Ferretd.Exec.ExecutionMachine

/-!
# The Universal session and the teardown of an execution

An execution that has ended has no open session, and its close operation, which waits for
the end, finds nothing left to close.
-/

namespace Ferretd.Exec

open Library Library.Broadcast List

/-- Sessions that a runner has been handed and not yet begun to close. -/
def RunPC.pending : RunPC → Nat
  | .closeFailed _ _ | .run | .enterClose _ _ => 1
  | .newSession | .returnClose _ _ | .finish _ => 0

/-- Runs that have still to ask for their session. -/
def RunPC.unopened : RunPC → Nat
  | .newSession => 1
  | _ => 0

namespace ExecutionRuntime

/-- No session was stored and nobody has tried to close it. -/
def Untouched (runtime : ExecutionRuntime) : Prop :=
  runtime.session = none ∧ runtime.closeOnce = .idle

def Settled (runtime : ExecutionRuntime) : Prop :=
  runtime.closeOnce ≠ .running ∧ (runtime.session = none ∨ runtime.closeOnce = .done)

variable {closed : Option Nat} {runtime entered : ExecutionRuntime}

theorem Untouched.settled (untouched : runtime.Untouched) : runtime.Settled := by
  refine ⟨?_, Or.inl untouched.1⟩
  rw [untouched.2]
  intro same
  cases same

theorem cancel_session (runtime : ExecutionRuntime) :
    runtime.cancel.session = runtime.session ∧
      runtime.cancel.closeOnce = runtime.closeOnce ∧
      runtime.cancel.closeErr = runtime.closeErr := by
  unfold cancel
  split <;> exact ⟨rfl, rfl, rfl⟩

theorem Settled.enterClose
    (settled : runtime.Settled) (taken : runtime.enterClose = some (entered, closed)) :
    closed = none ∧ entered.Settled := by
  obtain ⟨notRunning, nothing⟩ := settled
  unfold ExecutionRuntime.enterClose at taken
  cases once : runtime.closeOnce with
  | running => exact absurd once notRunning
  | done =>
    simp only [once] at taken
    cases taken
    exact ⟨rfl, notRunning, nothing⟩
  | idle =>
    have none : runtime.session = none := by
      rcases nothing with none | done
      · exact none
      · simp [once] at done
    simp only [once, none] at taken
    cases taken
    refine ⟨rfl, ?_, Or.inr rfl⟩
    intro same
    cases same

end ExecutionRuntime

/-- What the runtime looks like at a control point of the runner. -/
def RunPC.Consistent (runtime : ExecutionRuntime) : RunPC → Prop
  | .newSession | .closeFailed _ _ => runtime.Untouched
  | .run | .enterClose _ _ => runtime.session ≠ none ∧ runtime.closeOnce = .idle
  | .returnClose _ _ => runtime.closeOnce = .running
  | .finish _ => runtime.Settled

variable {runtime : ExecutionRuntime} {answer : Answer} {pc pc' : ClosePC} {e : Execution}
  {closed : Option Nat}

theorem runStep_ledger {pc pc' : RunPC} {next : ExecutionRuntime}
    (consistent : pc.Consistent runtime)
    (taken : runStep runtime answer pc = some (next, pc', closed)) :
    pc'.Consistent next ∧
      pc.opened answer + pc.pending = closed.toList.length + pc'.pending ∧
      pc.opened answer + pc'.unopened ≤ pc.unopened := by
  cases pc with
  | newSession =>
    have untouched : runtime.Untouched := consistent
    cases object : answer.object with
    | none =>
      have finished : ∃ result, pc' = .finish result ∧ next = runtime ∧ closed = none := by
        cases err : answer.err <;> simp only [runStep, object, err] at taken <;>
          cases taken <;> exact ⟨_, rfl, rfl, rfl⟩
      obtain ⟨result, rfl, rfl, rfl⟩ := finished
      exact ⟨untouched.settled, by simp [RunPC.opened, object, RunPC.pending],
        by simp [RunPC.opened, object, RunPC.unopened]⟩
    | some =>
      cases err : answer.err with
      | nil =>
        simp only [runStep, object, err] at taken
        cases taken
        exact ⟨⟨by simp, untouched.2⟩,
          by simp [RunPC.opened, object, RunPC.pending],
          by simp [RunPC.opened, object, RunPC.unopened]⟩
      | cons =>
        simp only [runStep, object, err] at taken
        cases taken
        exact ⟨untouched, by simp [RunPC.opened, object, RunPC.pending],
          by simp [RunPC.opened, object, RunPC.unopened]⟩
  | closeFailed =>
    have untouched : runtime.Untouched := consistent
    cases taken
    exact ⟨untouched.settled, rfl, Nat.le_refl 0⟩
  | run =>
    cases taken
    exact ⟨consistent, rfl, Nat.le_refl 0⟩
  | enterClose =>
    obtain ⟨stored, idle⟩ := consistent
    obtain ⟨session, sessionEq⟩ := Option.ne_none_iff_exists'.mp stored
    simp only [runStep, ExecutionRuntime.enterClose, idle, sessionEq] at taken
    cases taken
    exact ⟨rfl, rfl, Nat.le_refl 0⟩
  | returnClose =>
    cases taken
    refine ⟨⟨?_, Or.inr rfl⟩, rfl, Nat.le_refl 0⟩
    intro same
    cases same
  | finish => cases taken

namespace Execution

variable {ctxErr : GoError} {snapshot : ExecutionSnapshot} {e started : Execution}

theorem start_ok (accepted : e.start ctxErr = .ok (snapshot, started)) :
    e.state = .created ∧ started.state = .running ∧
      started.runtime = e.runtime ∧ started.close = e.close := by
  unfold start at accepted
  split at accepted
  · cases accepted
  split at accepted
  next created =>
    cases accepted
    exact ⟨created, rfl, rfl, rfl⟩
  · cases accepted
  · cases accepted

theorem cancel_frame (e : Execution) :
    e.cancel.runtime.session = e.runtime.session ∧
      e.cancel.runtime.closeOnce = e.runtime.closeOnce ∧
      e.cancel.close = e.close := by
  obtain ⟨session, closeOnce, _⟩ := e.runtime.cancel_session
  unfold cancel
  split
  · exact ⟨session, closeOnce, rfl⟩
  · exact ⟨session, closeOnce, rfl⟩
  · exact ⟨rfl, rfl, rfl⟩

theorem finish_frame (e : Execution) (result : RunResult) :
    (e.finish result).runtime = e.runtime ∧
      (e.finish result).close = e.close := by
  unfold finish
  split
  · exact ⟨rfl, rfl⟩
  dsimp only
  split
  · exact ⟨rfl, rfl⟩
  · split <;> exact ⟨rfl, rfl⟩

end Execution

theorem settleStep_close {settled : Execution}
    (taken : settleStep e answer pc = some (settled, pc', closed)) :
    settled.close = e.close := by
  cases pc with
  | cancel =>
    cases taken
    exact e.cancel_frame.2.2
  | awaitRun =>
    simp only [settleStep] at taken
    split at taken
    · cases taken
    · cases taken
      rfl
  | enterClose =>
    simp only [settleStep] at taken
    split at taken
    · cases taken
    · cases taken
      rfl
    · cases taken
      rfl
  | returnClose | releaseWatchers =>
    cases taken
    rfl
  | complete => cases taken

/-- The books of an execution: what it was handed is closed or about to be closed by
its runner. -/
structure SessionLedger (m : ExecutionMachine) : Prop where
  balance : m.opened = m.closes + tally RunPC.pending m.runners
  single : m.opened + tally RunPC.unopened m.runners ≤ m.runs
  runner : ∀ pc ∈ m.runners, pc.Consistent m.execution.runtime
  created : m.execution.state = .created → m.execution.runtime.Untouched
  ended : m.execution.state.terminal = true → m.execution.runtime.Settled
  closer : m.closer ≠ some .returnClose

structure Teardown (m : ExecutionMachine) : Prop where
  owner : m.closer = none ↔ m.execution.close.state ≠ .started
  finished : m.execution.close.state = .finished → m.execution.state.terminal = true

variable (id : Nat)

section

variable (target : RuntimeTarget) (input : RuntimeInput) (materialize : GoError → RuntimeFailure)
include target input materialize

theorem sessionLedger_init : SessionLedger (.init id target input materialize) := by
  refine ⟨rfl, Nat.le_refl 0, ?_, fun _ => ⟨rfl, rfl⟩, ?_, ?_⟩
  · nofun
  · nofun
  · nofun

theorem teardown_init : Teardown (.init id target input materialize) := by
  constructor <;>
    simp [ExecutionMachine.init, Execution.newExecution, Execution.publishLocked,
      CloseOperation.new]

end

namespace SessionLedger

variable {index : Nat} {result : RunResult} {m other : ExecutionMachine}

theorem congr (ledger : SessionLedger m) (opened : other.opened = m.opened)
    (closes : other.closes = m.closes) (runners : other.runners = m.runners)
    (runs : other.runs = m.runs) (state : other.execution.state = m.execution.state)
    (runtime : other.execution.runtime = m.execution.runtime)
    (closer : other.closer ≠ some .returnClose) : SessionLedger other := by
  constructor
  · rw [opened, closes, runners]
    exact ledger.balance
  · rw [opened, runners, runs]
    exact ledger.single
  · rw [runners, runtime]
    exact ledger.runner
  · rw [state, runtime]
    exact ledger.created
  · rw [state, runtime]
    exact ledger.ended
  · exact closer

/-- Steps that leave the session and `closeOnce` of the runtime alone, and move the
state at most to the end. -/
theorem congr_end (ledger : SessionLedger m)
    (opened : other.opened = m.opened) (closes : other.closes = m.closes)
    (runners : other.runners = m.runners) (runs : other.runs = m.runs)
    (session : other.execution.runtime.session = m.execution.runtime.session)
    (closeOnce : other.execution.runtime.closeOnce = m.execution.runtime.closeOnce)
    (created : other.execution.state = .created → m.execution.state = .created)
    (ended : other.execution.state.terminal = true →
      m.execution.runtime.Settled) (closer : other.closer ≠ some .returnClose) :
    SessionLedger other := by
  constructor
  · rw [opened, closes, runners]
    exact ledger.balance
  · rw [opened, runners, runs]
    exact ledger.single
  · intro pc member
    rw [runners] at member
    have consistent := ledger.runner pc member
    cases pc <;>
      simp_all [RunPC.Consistent, ExecutionRuntime.Untouched, ExecutionRuntime.Settled]
  · intro fresh
    have untouched := ledger.created (created fresh)
    exact ⟨session.trans untouched.1, closeOnce.trans untouched.2⟩
  · intro ceased
    obtain ⟨notRunning, nothing⟩ := ended ceased
    refine ⟨?_, ?_⟩
    · rw [closeOnce]
      exact notRunning
    · rw [session, closeOnce]
      exact nothing
  · exact closer

theorem cancel (ledger : SessionLedger m) {closer : Option ClosePC}
    (closing : closer ≠ some .returnClose) :
    SessionLedger { m with
      execution := m.execution.cancel, closer := closer } := by
  obtain ⟨session, closeOnce, _⟩ := m.execution.cancel_frame
  refine ledger.congr_end rfl rfl rfl rfl session closeOnce
    (follows_cancel m.execution).eq_created ?_ closing
  intro ended
  cases state : m.execution.state with
  | created => exact (ledger.created state).settled
  | running => simp [Execution.cancel, state, State.terminal] at ended
  | _ =>
    apply ledger.ended
    rw [state]
    rfl

theorem finish (ledger : SessionLedger m) (runner : m.runners[index]? = some (.finish result)) :
    SessionLedger { m with
      execution := m.execution.finish result
      runners := m.runners.eraseIdx index } := by
  have settled : m.execution.runtime.Settled :=
    ledger.runner _ (mem_of_getElem? runner)
  have runtime := (m.execution.finish_frame result).1
  have pending := tally_eraseIdx RunPC.pending runner
  have unopened := tally_eraseIdx RunPC.unopened runner
  have balance := ledger.balance
  have single := ledger.single
  constructor
  · dsimp only [RunPC.pending] at pending ⊢
    omega
  · dsimp only [RunPC.unopened] at unopened ⊢
    omega
  · intro pc member
    dsimp only
    rw [runtime]
    exact ledger.runner pc (mem_of_mem_eraseIdx member)
  · intro created
    dsimp only
    rw [runtime]
    exact ledger.created ((follows_finish m.execution result).eq_created created)
  · intro _
    dsimp only
    rw [runtime]
    exact settled
  · exact ledger.closer

variable {closed : Option Nat}

section

variable {action : ExecutionAction} {next : ExecutionMachine} (ledger : SessionLedger m)
include ledger

theorem run {pc pc' : RunPC} (phase : Phase m) (runner : m.runners[index]? = some pc)
    (taken : runStep m.execution.runtime answer pc = some (runtime, pc', closed)) :
    SessionLedger { m with
      execution := { m.execution with runtime := runtime }
      runners := m.runners.set index pc'
      opened := m.opened + pc.opened answer
      closes := m.closes + closed.toList.length } := by
  cases phase with
  | created _ _ none | ended _ _ _ none => simp [none] at runner
  | running first running _ one =>
    have only : index = 0 ∧ first = pc := by
      rw [one] at runner
      cases index <;> simp_all
    obtain ⟨rfl, rfl⟩ := only
    have consistent := ledger.runner first (mem_of_getElem? runner)
    obtain ⟨consistentNext, moved, bound⟩ := runStep_ledger consistent taken
    have balance := ledger.balance
    have single := ledger.single
    simp only [one, tally_cons, tally_nil] at balance single
    refine ⟨?_, ?_, ?_, ?_, ?_, ledger.closer⟩
    · simp only [one, set_cons_zero, tally_cons, tally_nil]
      omega
    · simp only [one, set_cons_zero, tally_cons, tally_nil]
      omega
    · intro pc member
      rw [one, set_cons_zero, mem_singleton] at member
      rw [member]
      exact consistentNext
    · intro created
      simp [running] at created
    · intro ended
      simp [running, State.terminal] at ended

theorem settle {settled : Execution} (invariant : ExecutionInvariant m)
    (closer : m.closer = some pc)
    (taken : settleStep m.execution answer pc = some (settled, pc', closed)) :
    SessionLedger { m with
      execution := settled
      closer := some pc'
      closes := m.closes + closed.toList.length } := by
  cases pc with
  | cancel =>
    cases taken
    exact ledger.cancel (by simp)
  | awaitRun =>
    simp only [settleStep] at taken
    split at taken
    · cases taken
    · cases taken
      exact ledger.congr rfl rfl rfl rfl rfl rfl (by simp)
  | enterClose =>
    -- The execution has ended, so there is no session left to close.
    have ended := invariant.settled _ closer rfl
    have nothing := ledger.ended ended
    have noRunner : m.runners = [] := by
      cases invariant.phase with
      | created _ _ none | ended _ _ _ none => exact none
      | running _ running => simp [running, State.terminal] at ended
    have balance := ledger.balance
    have single := ledger.single
    cases entered : m.execution.runtime.enterClose with
    | none => simp [settleStep, entered] at taken
    | some result =>
      obtain ⟨runtime, session⟩ := result
      obtain ⟨rfl, settledNext⟩ := nothing.enterClose entered
      simp only [settleStep, entered] at taken
      cases taken
      refine ⟨balance, single, ?_, ?_, fun _ => settledNext, by simp⟩
      · intro pc member
        simp [noRunner] at member
      · intro created
        have state : m.execution.state = .created := created
        simp [state, State.terminal] at ended
  | returnClose => exact absurd closer ledger.closer
  | releaseWatchers =>
    cases taken
    exact ledger.congr rfl rfl rfl rfl rfl rfl (by simp)
  | complete => cases taken

theorem step (invariant : ExecutionInvariant m)
    (taken : m.step action = some next) : SessionLedger next := by
  cases Effect.of_step taken with
  | keep => exact ledger
  | start accepted =>
    obtain ⟨created, running, runtime, _⟩ := Execution.start_ok accepted
    have untouched := ledger.created created
    have balance := ledger.balance
    have single := ledger.single
    refine ⟨?_, ?_, ?_, ?_, ?_, ledger.closer⟩
    · simpa [RunPC.pending] using balance
    · simp only [tally_concat, RunPC.unopened]
      omega
    · intro pc member
      dsimp only
      rw [runtime]
      rcases mem_append.mp member with before | fresh
      · exact ledger.runner pc before
      · rw [mem_singleton.mp fresh]
        exact untouched
    · intro createdNext
      simp [running] at createdNext
    · intro ended
      simp [running, State.terminal] at ended
  | cancel => exact ledger.cancel ledger.closer
  | finish runner => exact ledger.finish runner
  | run runner advanced =>
    exact ledger.run invariant.phase runner advanced
  | beginClose =>
    exact ledger.congr rfl rfl rfl rfl rfl rfl (by simp [ExecutionMachine.beginClose])
  | settle closer advanced =>
    exact ledger.settle invariant closer advanced
  | complete => exact ledger.congr rfl rfl rfl rfl rfl rfl (by simp)
  | subscribe | reader => exact ledger.congr rfl rfl rfl rfl rfl rfl ledger.closer

end

end SessionLedger

variable {m next : ExecutionMachine} {action : ExecutionAction}

theorem close_evolves (taken : m.step action = some next) :
    m.execution.close.Evolves next.execution.close := by
  cases Effect.of_step taken with
  | start accepted =>
    obtain ⟨_, _, _, close⟩ := Execution.start_ok accepted
    dsimp only
    rw [close]
    exact .refl _
  | cancel =>
    dsimp only
    rw [m.execution.cancel_frame.2.2]
    exact .refl _
  | @finish _ _ result =>
    dsimp only
    rw [(m.execution.finish_frame result).2]
    exact .refl _
  | beginClose => exact CloseOperation.evolves_begin m.execution.close
  | settle _ advanced =>
    dsimp only
    rw [settleStep_close advanced]
    exact .refl _
  | complete _ finished =>
    exact CloseOperation.evolves_finish finished
  | _ => exact .refl _

theorem Teardown.step (teardown : Teardown m)
    (invariant : ExecutionInvariant m) (taken : m.step action = some next) :
    Teardown next := by
  have follows := follows_step invariant taken
  have stays : m.execution.close.state = .finished →
      next.execution.state.terminal = true := by
    intro finished
    have ended := teardown.finished finished
    rw [follows.eq_of_terminal ended]
    exact ended
  have owner := teardown.owner
  cases Effect.of_step taken with
  | start accepted =>
    obtain ⟨_, _, _, close⟩ := Execution.start_ok accepted
    exact ⟨by simpa only [close] using owner, by simpa only [close] using stays⟩
  | cancel =>
    have close := m.execution.cancel_frame.2.2
    exact ⟨by simpa only [close] using owner, by simpa only [close] using stays⟩
  | @finish _ _ result =>
    have close := (m.execution.finish_frame result).2
    exact ⟨by simpa only [close] using owner, by simpa only [close] using stays⟩
  | beginClose idle =>
    simp only [ExecutionMachine.beginClose, Execution.beginClose,
      CloseOperation.begin_of_idle idle]
    constructor <;> simp
  | settle closer advanced =>
    have close := settleStep_close advanced
    refine ⟨?_, by simpa only [close] using stays⟩
    have busy : m.execution.close.state = .started := by
      by_contra other
      have none := owner.mpr other
      simp [closer] at none
    simp [close, busy]
  | @complete err close _ closer finished =>
    have busy : m.execution.close.state = .started := by
      by_contra other
      have none := owner.mpr other
      simp [closer] at none
    rw [CloseOperation.finish_of_started err busy] at finished
    cases finished
    refine ⟨by simp, fun _ => ?_⟩
    exact invariant.settled _ closer rfl
  | _ => exact ⟨owner, stays⟩

/-- Everything that holds of an execution in every run. -/
structure ExecutionSound (m : ExecutionMachine) : Prop where
  invariant : ExecutionInvariant m
  ledger : SessionLedger m
  teardown : Teardown m

theorem executionSound_init (target : RuntimeTarget) (input : RuntimeInput)
    (materialize : GoError → RuntimeFailure) :
    ExecutionSound (.init id target input materialize) :=
  ⟨executionInvariant_init id target input materialize,
    sessionLedger_init id target input materialize,
    teardown_init id target input materialize⟩

namespace ExecutionSound

section

variable (sound : ExecutionSound m)
include sound

theorem step (taken : m.step action = some next) : ExecutionSound next :=
  ⟨executionInvariant_step sound.invariant taken,
    sound.ledger.step sound.invariant taken,
    sound.teardown.step sound.invariant taken⟩

theorem closed_of_terminal (ended : m.execution.state.terminal = true) :
    m.opened = m.closes ∧ m.closes ≤ 1 := by
  have balance := sound.ledger.balance
  have single := sound.ledger.single
  cases sound.invariant.phase with
  | created created => simp [created, State.terminal] at ended
  | running _ running => simp [running, State.terminal] at ended
  | ended _ _ _ none =>
    simp only [none, tally_nil] at balance single
    omega

theorem closes_le_one : m.closes ≤ 1 := by
  have balance := sound.ledger.balance
  have single := sound.ledger.single
  have runs : m.runs ≤ 1 := by
    cases sound.invariant.phase with
    | created | running => omega
    | ended _ _ _ _ count => exact count
  omega

end

end ExecutionSound

end Ferretd.Exec

import Ferretd.Exec.SessionLedger

/-!
# The invariant of a session machine

How far the owner of the close operation has come decides what else can still happen; the
facts are stated for every step that lies behind the owner.
-/

namespace Ferretd.Exec

open Library SessionMachine SessionClosePC List

/-! ## How far the owner has come -/

namespace SessionClosePC

/-- Behind `WaitForCreates`. -/
def createsDone : SessionClosePC → Bool
  | .waitForCreates | .awaitCreates _ => false
  | _ => true

/-- Behind `beginSessionClose`. -/
def collected : SessionClosePC → Bool
  | .waitForCreates | .awaitCreates _ | .beginChildren => false
  | _ => true

def settled : SessionClosePC → Bool
  | .waitForCreates | .awaitCreates _ | .beginChildren | .awaitChildren _ _ => false
  | _ => true

def released : SessionClosePC → Bool
  | .takePlans _ | .closePlan _ _ _ | .closeDebugPlan _ _ | .finishClose _
  | .removeEntry => true
  | _ => false

def taken : SessionClosePC → Bool
  | .closePlan _ _ _ | .closeDebugPlan _ _ | .finishClose _ | .removeEntry => true
  | _ => false

variable {pc : SessionClosePC}

theorem createsDone_of_collected (passed : pc.collected = true) : pc.createsDone = true := by
  cases pc <;> simp_all [collected, createsDone]

theorem collected_of_settled (passed : pc.settled = true) : pc.collected = true := by
  cases pc <;> simp_all [collected, settled]

theorem settled_of_released (passed : pc.released = true) : pc.settled = true := by
  cases pc <;> simp_all [released, settled]

theorem released_of_taken (passed : pc.taken = true) : pc.released = true := by
  cases pc <;> simp_all [released, taken]

end SessionClosePC

variable {pc : SessionClosePC} {m next : SessionMachine}

namespace SessionMachine

abbrev gate (m : SessionMachine) : Gate :=
  m.core.session.children

/-- The owner has passed a point: it is behind it, or it has finished. -/
def passed (m : SessionMachine) (test : SessionClosePC → Bool) : Bool :=
  match m.worker with
  | some pc => test pc
  | none => m.gate.close.finished

variable {stronger weaker : SessionClosePC → Bool} {m : SessionMachine}

theorem passed_congr {other : SessionMachine} (worker : other.worker = m.worker)
    (close : other.gate.close = m.gate.close) (test : SessionClosePC → Bool) :
    other.passed test = m.passed test := by
  simp [passed, worker, close]

theorem passed_mono (implied : ∀ {pc}, stronger pc = true → weaker pc = true)
    (passed : m.passed stronger = true) : m.passed weaker = true := by
  unfold SessionMachine.passed at passed ⊢
  cases owner : m.worker with
  | none => simpa only [owner] using passed
  | some =>
    simp only [owner] at passed
    exact implied passed

theorem passed_of_worker (owner : m.worker = some pc) (test : SessionClosePC → Bool) :
    m.passed test = test pc := by
  simp [passed, owner]

end SessionMachine

/-! ## The entry, the gate and the owner -/

/-- The close operation is under way exactly while it has an owner, and the registry
entry says whether it has begun. -/
structure Ownership (m : SessionMachine) : Prop where
  idle : m.gate.close.state = .idle → m.worker = none
  started :
    m.gate.close.state = .started → ∃ pc, m.worker = some pc ∧ pc ≠ .removeEntry
  finished :
    m.gate.close.state = .finished →
      m.worker = none ∨ m.worker = some .removeEntry
  entry :
    ∀ entry, m.entry = some entry →
      (entry.state = .active ↔ m.gate.close.state = .idle)
  listed :
    ∀ entry, m.entry = some entry → entry.listed = false →
      m.gate.close.state = .finished
  removing :
    ∀ entry, m.entry = some entry → entry.listed = true →
      m.gate.close.state = .finished → m.worker = some .removeEntry
  unpublished :
    m.entry = none →
      m.gate.close.state = .idle ∧ m.creators = [] ∧
        m.executions = [] ∧ m.core.debugs = [] ∧
        m.core.session.debugPlan = none

namespace Ownership

section

variable {other : SessionMachine} {creation : RuntimeCreation} {runtime : DebugRuntime}
  (ownership : Ownership m)
include ownership

theorem congr (worker : other.worker = m.worker)
    (close : other.gate.close = m.gate.close) (entry : other.entry = m.entry)
    (unpublished : m.entry = none →
      other.creators = [] ∧ other.executions = [] ∧ other.core.debugs = [] ∧
        other.core.session.debugPlan = none) :
    Ownership other := by
  constructor
  · rw [close, worker]
    exact ownership.idle
  · rw [close, worker]
    exact ownership.started
  · rw [close, worker]
    exact ownership.finished
  · rw [entry, close]
    exact ownership.entry
  · rw [entry, close]
    exact ownership.listed
  · rw [entry, close, worker]
    exact ownership.removing
  · intro none
    rw [entry] at none
    refine ⟨?_, unpublished none⟩
    rw [close]
    exact (ownership.unpublished none).1

theorem published_of_creator {index : Nat}
    (creator : m.creators[index]? = some creation) : m.entry ≠ none := by
  intro none
  have empty := (ownership.unpublished none).2.1
  simp [empty] at creator

theorem published_of_execution {id : Nat}
    {entry : ExecutionEntry} (found : m.executions[id]? = some entry) :
    m.entry ≠ none := by
  intro none
  have empty := (ownership.unpublished none).2.2.1
  simp [empty] at found

theorem published_of_debug {debug : Nat} (found : m.core.debugs[debug]? = some runtime) :
    m.entry ≠ none := by
  intro none
  have empty := (ownership.unpublished none).2.2.2.1
  simp [empty] at found

theorem started_of_worker (owner : m.worker = some pc) (working : pc ≠ .removeEntry) :
    m.gate.close.state = .started := by
  cases state : m.gate.close.state with
  | idle =>
    have none := ownership.idle state
    simp [owner] at none
  | started => rfl
  | finished =>
    rcases ownership.finished state with none | last
    · simp [owner] at none
    · rw [owner] at last
      cases last
      exact absurd rfl working

theorem finished_of_worker (owner : m.worker = some .removeEntry) :
    m.gate.close.state = .finished := by
  cases state : m.gate.close.state with
  | idle =>
    have none := ownership.idle state
    simp [owner] at none
  | started =>
    obtain ⟨pc, working, notLast⟩ := ownership.started state
    rw [owner] at working
    cases working
    exact absurd rfl notLast
  | finished => rfl

theorem published_of_worker (owner : m.worker = some pc) : m.entry ≠ none := by
  intro none
  have idle := ownership.idle (ownership.unpublished none).1
  simp [owner] at idle

end

end Ownership

theorem ownership_init (id ws hooks : Nat) (materialize : GoError → RuntimeFailure) :
    Ownership (.init id ws hooks materialize) := by
  constructor <;>
    simp [init, SessionMachine.gate, Session.newSession, Gate.new, CloseOperation.new]

theorem CloseMove.frame (move : CloseMove m pc next) :
    next.creators = m.creators ∧ next.core.debugs = m.core.debugs ∧
      next.hooks = m.hooks := by
  cases move with
  | @closePlan _ _ plan => cases plan <;> exact ⟨rfl, rfl, rfl⟩
  | @closeDebugPlan _ _ debugPlan => cases debugPlan <;> exact ⟨rfl, rfl, rfl⟩
  | _ => exact ⟨rfl, rfl, rfl⟩

theorem SessionMachine.closeTaken_frame (m : SessionMachine) (plan : Option Nat) :
    (m.closeTaken plan).core.session = m.core.session ∧
      (m.closeTaken plan).entry = m.entry ∧
      (m.closeTaken plan).executions = m.executions ∧
      (m.closeTaken plan).registry = m.registry := by
  cases plan <;> exact ⟨rfl, rfl, rfl, rfl⟩

/-- Every step of the owner but the last two goes on to a point that is neither the
first nor the last, and leaves the gate and the entry alone. -/
theorem CloseMove.advances (move : CloseMove m pc next)
    (finishes : ∀ result, pc ≠ .finishClose result) (removes : pc ≠ .removeEntry) :
    (∃ pc', next.worker = some pc' ∧ pc' ≠ .removeEntry) ∧
      next.gate = m.gate ∧ next.entry = m.entry := by
  cases move with
  | @finish result => exact absurd rfl (finishes result)
  | remove => exact absurd rfl removes
  | @closePlan _ _ plan =>
    obtain ⟨session, entry, _⟩ := m.closeTaken_frame plan
    refine ⟨⟨_, rfl, by simp⟩, ?_, entry⟩
    simp [SessionMachine.gate, session]
  | @closeDebugPlan _ _ debugPlan =>
    obtain ⟨session, entry, _⟩ := m.closeTaken_frame debugPlan
    refine ⟨⟨_, rfl, by simp⟩, ?_, entry⟩
    simp [SessionMachine.gate, session]
  | _ => exact ⟨⟨_, rfl, by simp⟩, rfl, rfl⟩

theorem SessionCore.applyDebugEffect_frame (core : SessionCore) (effect : DebugEffect) :
    (core.applyDebugEffect effect).session.children = core.session.children ∧
      (core.applyDebugEffect effect).session.plan = core.session.plan ∧
      (core.applyDebugEffect effect).session.debugPlan = core.session.debugPlan ∧
      (core.applyDebugEffect effect).debugs = core.debugs := by
  cases effect with
  | none | closeDebugger => exact ⟨rfl, rfl, rfl, rfl⟩
  | releaseLease =>
    obtain ⟨_, plan, debugPlan, children, _⟩ := core.session.releaseDebugRuntime_spec
    exact ⟨children, plan, debugPlan, rfl⟩

namespace Ownership

theorem close (ownership : Ownership m) (owner : m.worker = some pc) (move : CloseMove m pc next) :
    Ownership next := by
  have published := ownership.published_of_worker owner
  by_cases last : pc = .removeEntry
  · subst last
    cases move
    have finished := ownership.finished_of_worker owner
    refine ⟨fun _ => rfl, ?_, fun _ => Or.inl rfl, ?_, fun _ _ _ => finished, ?_, ?_⟩
    · intro started
      cases finished.symm.trans started
    · intro entry unlisted
      obtain ⟨before, known, rfl⟩ := Option.map_eq_some_iff.mp unlisted
      exact ownership.entry before known
    · intro entry unlisted isListed
      obtain ⟨before, known, rfl⟩ := Option.map_eq_some_iff.mp unlisted
      cases isListed
    · intro none
      exact absurd (Option.map_eq_none_iff.mp none) published
  · have started := ownership.started_of_worker owner last
    have closing : ∀ entry, m.entry = some entry → entry.state ≠ .active := by
      intro entry known active
      have idle := (ownership.entry entry known).1 active
      simp [started] at idle
    by_cases finishing : ∃ result, pc = .finishClose result
    · obtain ⟨result, rfl⟩ := finishing
      cases move with
      | finish finished =>
        obtain ⟨_, _, rfl⟩ := Gate.finishClose_ok finished
        refine ⟨by simp, by simp, fun _ => Or.inr rfl, ?_, fun _ _ _ => rfl,
          fun _ _ _ _ => rfl, ?_⟩
        · intro entry known
          simp [closing entry known]
        · intro none
          exact absurd none published
    · obtain ⟨⟨pc', goesOn, working⟩, gate, entry⟩ :=
        move.advances (fun result same => finishing ⟨result, same⟩) last
      rw [← gate] at started
      refine ⟨?_, fun _ => ⟨pc', goesOn, working⟩, ?_, ?_, ?_, ?_, ?_⟩
      · intro idle
        simp [started] at idle
      · intro finished
        simp [started] at finished
      · rw [entry, gate]
        exact ownership.entry
      · rw [entry, gate]
        exact ownership.listed
      · intro _ _ _ finished
        simp [started] at finished
      · intro none
        exact absurd (entry ▸ none) published

theorem step (ownership : Ownership m) {action : SessionAction}
    (credible : ∀ creation ∈ m.creators, creation.pc.Credible)
    (taken : m.step action = some next) : Ownership next := by
  cases SessionEffect.of_step taken with
  | keep => exact ownership
  | publish unpublished =>
    obtain ⟨idle, _⟩ := ownership.unpublished unpublished
    refine ⟨ownership.idle, ownership.started, ownership.finished, ?_, ?_, ?_, ?_⟩
    · intro entry fresh
      cases fresh
      exact ⟨fun _ => idle, fun _ => rfl⟩
    · intro entry fresh unlisted
      cases fresh
      cases unlisted
    · intro entry _ _ finished
      cases idle.symm.trans finished
    · nofun
  | discard unpublished =>
    exact ownership.congr rfl rfl rfl fun none => (ownership.unpublished none).2
  | enroll active =>
    have idle := (ownership.entry _ active).1 rfl
    have close := (Gate.beginCreate_of_accepting idle).2.2
    refine ownership.congr rfl close rfl fun none => ?_
    simp [active] at none
  | addExecution creator =>
    exact ownership.congr rfl rfl rfl fun none =>
      absurd none (ownership.published_of_creator creator)
  | create creator stepped =>
    have move := CreateMove.of_createStep (credible _ (mem_of_getElem? creator)) stepped
    have close := congrArg Gate.close move.frame.1
    exact ownership.congr rfl close rfl fun none =>
      absurd none (ownership.published_of_creator creator)
  | finishCreate creator ended =>
    have close := (Gate.endCreate_ok ended).2.1
    exact ownership.congr rfl close rfl fun none =>
      absurd none (ownership.published_of_creator creator)
  | execution _ found | beginExecutionClose found
  | removeExecution found =>
    exact ownership.congr rfl rfl rfl fun none =>
      absurd none (ownership.published_of_execution found)
  | beginDebugClose found =>
    exact ownership.congr rfl rfl rfl fun none =>
      absurd none (ownership.published_of_debug found)
  | @debugClose _ _ _ _ _ _ effect _ found =>
    refine ownership.congr rfl
      (congrArg Gate.close (SessionCore.applyDebugEffect_frame _ effect).1) rfl ?_
    intro none
    exact absurd none (ownership.published_of_debug found)
  | @beginClose entry published active =>
    have idle := (ownership.entry entry published).1 active
    rw [Gate.beginClose_of_accepting idle]
    refine ⟨by simp, fun _ => ⟨_, rfl, by simp⟩, by simp, ?_, ?_, by simp, ?_⟩
    · intro closing known
      cases known
      simp
    · intro closing known unlisted
      cases known
      have finished := ownership.listed entry published unlisted
      simp [idle] at finished
    · nofun
  | close owner move => exact ownership.close owner move

end Ownership

/-! ## The ledger along a run -/

namespace Ledger

section

variable {index : Nat} {input : RuntimeInput} {last : Bool} {children : Gate} {err : GoError}
  {held : Option Nat} {pc' : SessionClosePC} {action : SessionAction} (ledger : Ledger m)
include ledger

theorem enroll (input : RuntimeInput) (debug : Bool) (idle : m.gate.close.state = .idle) :
    Ledger { m with
      core := { m.core with
        session := { m.core.session with
          children := m.core.session.children.beginCreate.2 } }
      creators := m.creators ++ [⟨input, if debug then .acquire else .addExecution⟩] } := by
  have counted := (Gate.beginCreate_of_accepting idle).2.1
  refine ledger.congr_gate _ ledger.gate.beginCreate ?_ ?_ ?_ ?_ ?_ ?_ fun _ => rfl
  · rw [counted, ledger.creating, length_append, length_singleton]
  · intro creation member
    rcases mem_append.mp member with before | fresh
    · exact ledger.credible creation before
    · rw [mem_singleton.mp fresh]
      cases debug <;> trivial
  · intro plan
    cases debug <;> simp [CreatePC.holdsPlan]
  · intro dbg
    cases debug <;> simp [CreatePC.holdsDebugger]
  · cases debug <;> simp [CreatePC.leased]
  · cases debug <;> simp [CreatePC.compiling]

theorem addExecution (creator : m.creators[index]? = some ⟨input, .addExecution⟩)
    (executions : List ExecutionEntry) (registry : ExecutionRegistry) :
    Ledger { m with
      creators := m.creators.set index ⟨input, .finish []⟩
      executions := executions
      registry := registry } := by
  have moved : ∀ weight : RuntimeCreation → Nat,
      weight ⟨input, .finish []⟩ = weight ⟨input, .addExecution⟩ →
        tally weight (m.creators.set index ⟨input, .finish []⟩) =
          tally weight m.creators := by
    intro weight same
    have set := tally_set weight creator ⟨input, .finish []⟩
    omega
  have kept : Ledger { m with
      creators := m.creators.set index ⟨input, .finish []⟩ } := by
    refine ledger.congr_gate _ ledger.gate ?_ ?_ (fun _ => moved _ rfl)
      (fun _ => moved _ rfl) (moved _ rfl) (moved _ rfl) fun _ => rfl
    · rw [length_set]
      exact ledger.creating
    intro creation member
    rcases mem_or_eq_of_mem_set member with before | rfl
    · exact ledger.credible creation before
    · trivial
  exact kept.congr rfl rfl fun _ => rfl

theorem finishCreate (creator : m.creators[index]? = some ⟨input, .finish err⟩)
    (ended : m.core.session.children.endCreate = .ok (last, children)) :
    Ledger { m with
      core := { m.core with
        session := { m.core.session with children := children } }
      creators := m.creators.eraseIdx index } := by
  have left : ∀ weight : RuntimeCreation → Nat, weight ⟨input, .finish err⟩ = 0 →
      tally weight (m.creators.eraseIdx index) = tally weight m.creators := by
    intro weight none
    have erased := tally_eraseIdx weight creator
    omega
  refine ledger.congr_gate _ (ledger.gate.endCreate ended) ?_ ?_ (fun _ => left _ rfl)
    (fun _ => left _ rfl) (left _ rfl) (left _ rfl) fun _ => rfl
  · have counted := (Gate.endCreate_ok ended).1
    have creating := ledger.creating
    have inside := (List.getElem?_eq_some_iff.mp creator).1
    rw [length_eraseIdx_of_lt inside]
    omega
  · intro creation member
    exact ledger.credible creation (mem_of_mem_eraseIdx member)

theorem beginClose (entry : Option SessionEntry) (idle : m.worker = none) :
    Ledger { m with
      core := { m.core with
        session := { m.core.session with
          children := m.core.session.children.beginClose.2 } }
      entry := entry
      worker := some .waitForCreates } := by
  refine ledger.congr_gate entry ledger.gate.beginClose ledger.creating ledger.credible
    (fun _ => rfl) (fun _ => rfl) rfl rfl fun plan => ?_
  simp [workerHolds, idle, holdsPlan]

theorem closeTaken (owner : m.worker = some pc)
    (drops : ∀ plan, pc.holdsPlan plan = holds held plan + pc'.holdsPlan plan) :
    Ledger { m.closeTaken held with worker := some pc' } := by
  cases held with
  | none =>
    refine ledger.congr rfl rfl fun plan => ?_
    have same := drops plan
    simp only [holds_none, Nat.zero_add] at same
    simp [workerHolds, owner, same]
  | some held =>
    refine ⟨ledger.gate, ledger.creating, ledger.credible, ?_, ledger.debuggers,
      ledger.leases, ledger.leaseChannel, ledger.compilation, ledger.compiling,
      ledger.debugs⟩
    intro plan
    have before := ledger.plans plan
    have closes := m.core.objects.planCloses_closePlan held plan
    have same :
        (m.core.objects.closePlan held).plans = m.core.objects.plans :=
      rfl
    have dropped := drops plan
    simp only [planHeld, workerHolds, SessionMachine.closeTaken, owner, closes, same] at before ⊢
    omega

theorem close (owner : m.worker = some pc) (move : CloseMove m pc next) : Ledger next := by
  cases move with
  | take =>
    refine ⟨ledger.gate, ledger.creating, ledger.credible, ?_, ledger.debuggers,
      ledger.leases, ledger.leaseChannel, ?_, ledger.compiling, ledger.debugs⟩
    · intro plan
      have before := ledger.plans plan
      simp only [planHeld, workerHolds, owner,
        Session.holdsPlan, holdsPlan, holds_none] at before ⊢
      omega
    · exact ⟨ledger.compilation.channel, fun _ => rfl⟩
  | closePlan | closeDebugPlan => exact ledger.closeTaken owner fun _ => rfl
  | finish finished =>
    refine ledger.congr_gate _ (ledger.gate.finishClose finished) ?_ ledger.credible
      (fun _ => rfl) (fun _ => rfl) rfl rfl fun plan => ?_
    · obtain ⟨none, _, rfl⟩ := Gate.finishClose_ok finished
      exact ledger.creating
    · simp [workerHolds, owner, holdsPlan]
  | _ =>
    refine ledger.congr rfl rfl fun plan => ?_
    simp [workerHolds, owner, holdsPlan]

theorem step (ownership : Ownership m) (taken : m.step action = some next) :
    Ledger next := by
  cases SessionEffect.of_step taken with
  | keep => exact ledger
  | discard _ held => exact ledger.discard held
  | @enroll debug input _ active =>
    exact ledger.enroll input debug ((ownership.entry _ active).1 rfl)
  | @addExecution _ registry _ _ creator =>
    exact ledger.addExecution creator _ registry
  | create creator stepped =>
    exact ledger.create creator (.of_createStep
      (ledger.credible _ (mem_of_getElem? creator)) stepped)
  | finishCreate creator ended =>
    exact ledger.finishCreate creator ended
  | beginDebugClose found => exact ledger.beginDebugClose found
  | debugClose found closer move =>
    exact ledger.debugClose found closer move
  | @beginClose entry published active =>
    exact ledger.beginClose _ (ownership.idle ((ownership.entry entry published).1 active))
  | close owner move => exact ledger.close owner move
  | _ =>
    exact ledger.congr rfl rfl fun _ => rfl

end

end Ledger

end Ferretd.Exec

import Ferretd.Exec.SessionChildren

/-!
# Teardown of a session

What the published result of a session's close operation says about everything below it.
-/

namespace Ferretd.Exec

open Library List

structure SessionSound (m : SessionMachine) : Prop where
  ledger : Ledger m
  ownership : Ownership m
  quiesced : Quiesced m
  drained : Drained m
  targets : Targets m
  children : Children m
  enumerated : Enumerated m

theorem sessionSound_init (id ws hooks : Nat) (materialize : GoError → RuntimeFailure) :
    SessionSound (.init id ws hooks materialize) :=
  ⟨ledger_init id ws hooks materialize,
    ownership_init id ws hooks materialize,
    quiesced_init id ws hooks materialize,
    drained_init id ws hooks materialize,
    targets_init id ws hooks materialize,
    children_init id ws hooks materialize,
    enumerated_init id ws hooks materialize⟩

variable {plan id : Nat} {entry : ExecutionEntry} {debug : DebugRuntime} {more : GoError}
  {m next : SessionMachine} {action : SessionAction}

theorem SessionSound.step (sound : SessionSound m)
    (taken : m.step action = some next) : SessionSound next :=
  ⟨sound.ledger.step sound.ownership taken,
    sound.ownership.step sound.ledger.credible taken,
    sound.quiesced.step sound.ownership sound.ledger taken,
    sound.drained.step sound.quiesced sound.ownership sound.ledger taken,
    sound.targets.step sound.quiesced sound.drained sound.ownership sound.ledger taken,
    sound.children.step sound.quiesced sound.ownership sound.ledger taken,
    sound.enumerated.step taken⟩

/-! ## What a step keeps -/

section

variable (sound : SessionSound m) (taken : m.step action = some next)
include sound taken

theorem SessionSound.gate_evolves : m.gate.Evolves next.gate := by
  cases SessionEffect.of_step taken with
  | enroll => exact Gate.evolves_beginCreate
  | @create _ _ _ _ core _ creator stepped =>
    have move := CreateMove.of_createStep
      (sound.ledger.credible _ (mem_of_getElem? creator)) stepped
    have same : core.session.children = m.gate := move.frame.1
    rw [← same]
    exact .refl _
  | finishCreate _ ended =>
    exact Gate.evolves_endCreate ended
  | @debugClose debug runtime index _ closed pc' effect =>
    obtain ⟨children, _⟩ := SessionCore.applyDebugEffect_frame { m.core with
        debugs := m.core.debugs.set debug
          { closed with closers := runtime.closers.set index pc' } } effect
    unfold SessionMachine.gate
    rw [children]
    exact .refl _
  | beginClose => exact Gate.evolves_beginClose
  | close _ move =>
    cases move with
    | finish finished => exact Gate.evolves_finishClose finished
    | @closePlan _ _ plan => cases plan <;> exact .refl _
    | @closeDebugPlan _ _ debugPlan => cases debugPlan <;> exact .refl _
    | _ => exact .refl _
  | _ => exact .refl _

theorem SessionSound.executions_evolve : PoolEvolves m.executions next.executions := by
  cases SessionEffect.of_step taken with
  | addExecution => exact .concat _ _
  | @execution _ entry _ _ id opens found stepped =>
    exact .set found ((sound.children.sound id entry found).step opens stepped).2
  | @beginExecutionClose entry _ _ id found begins =>
    exact .set found
      ((sound.children.sound id entry found).beginCloseLocked begins).2.1
  | removeExecution found =>
    exact .set found ⟨.refl _, fun _ => rfl⟩
  | close _ move =>
    cases move with
    | begin _ begun =>
      exact (ExecutionRegistry.beginCloseAll_ok sound.children.sound begun).2.1
    | @closePlan _ _ plan => cases plan <;> exact .refl _
    | @closeDebugPlan _ _ debugPlan => cases debugPlan <;> exact .refl _
    | _ => exact .refl _
  | _ => exact .refl _

theorem SessionSound.workspace_step :
    next.core.session.workspace = m.core.session.workspace := by
  have leased : ∀ session : Session,
      session.newDebugRuntimeTargetLocked.workspace = session.workspace := by
    intro session
    unfold Session.newDebugRuntimeTargetLocked
    split <;> rfl
  have released : ∀ session : Session,
      session.releaseDebugRuntime.workspace = session.workspace := by
    intro session
    unfold Session.releaseDebugRuntime
    split
    · rfl
    · split <;> rfl
  cases SessionEffect.of_step taken with
  | create creator stepped =>
    have move := CreateMove.of_createStep
      (sound.ledger.credible _ (mem_of_getElem? creator)) stepped
    cases move with
    | leased => exact leased _
    | @stored plan => exact leased { m.core.session with debugPlan := some plan }
    | released => exact released _
    | _ => rfl
  | @debugClose _ _ _ _ _ _ effect =>
    cases effect with
    | none | closeDebugger => rfl
    | releaseLease => exact released _
  | close _ move =>
    cases move with
    | @closePlan _ _ plan => cases plan <;> rfl
    | @closeDebugPlan _ _ debugPlan => cases debugPlan <;> rfl
    | _ => rfl
  | _ => rfl

end

/-- What a step does to the entry: only `publish` makes one, and it is listed only if
it was listed before or is published now. -/
theorem SessionSound.entry_step (taken : m.step action = some next) :
    (m.entry ≠ none → next.entry ≠ none) ∧
      (action ≠ .publish →
        (next.entry = none ↔ m.entry = none) ∧
          ∀ entry, next.entry = some entry → entry.listed = true →
            ∃ before, m.entry = some before ∧ before.listed = true) := by
  have same : next.entry = m.entry →
      (m.entry ≠ none → next.entry ≠ none) ∧
        (action ≠ .publish →
          (next.entry = none ↔ m.entry = none) ∧
            ∀ entry, next.entry = some entry → entry.listed = true →
              ∃ before, m.entry = some before ∧ before.listed = true) := by
    intro equal
    rw [equal]
    exact ⟨id, fun _ => ⟨Iff.rfl, fun entry known listed => ⟨entry, known, listed⟩⟩⟩
  cases SessionEffect.of_step taken with
  | publish => refine ⟨fun _ => by simp, fun other => absurd rfl other⟩
  | @beginClose entry published =>
    refine ⟨fun _ => by simp, fun _ => ⟨by simp [published], ?_⟩⟩
    intro closing known listed
    cases known
    exact ⟨entry, published, listed⟩
  | close _ move =>
    cases move with
    | remove =>
      refine ⟨?_, fun _ => ⟨Option.map_eq_none_iff, ?_⟩⟩
      · intro published none
        exact published (Option.map_eq_none_iff.mp none)
      · intro entry known listed
        obtain ⟨before, _, rfl⟩ := Option.map_eq_some_iff.mp known
        cases listed
    | @closePlan _ _ plan => exact same (m.closeTaken_frame plan).2.1
    | @closeDebugPlan _ _ debugPlan => exact same (m.closeTaken_frame debugPlan).2.1
    | _ => exact same rfl
  | _ => exact same rfl

theorem SessionSound.plan_step (sound : SessionSound m)
    (taken : m.step action = some next) (held : next.core.session.plan ≠ none) :
    m.core.session.plan ≠ none := by
  cases SessionEffect.of_step taken with
  | discard => exact absurd rfl held
  | create creator stepped =>
    have move := CreateMove.of_createStep
      (sound.ledger.credible _ (mem_of_getElem? creator)) stepped
    rw [← move.frame.2]
    exact held
  | @debugClose _ _ _ _ _ _ effect =>
    rwa [(SessionCore.applyDebugEffect_frame _ effect).2.1] at held
  | close _ move =>
    cases move with
    | take => exact absurd rfl held
    | @closePlan _ _ plan => cases plan <;> exact held
    | @closeDebugPlan _ _ debugPlan => cases debugPlan <;> exact held
    | _ => exact held
  | _ => exact held

/-! ## Plans, debugger sessions and leases -/

namespace SessionSound

section

variable {creation : RuntimeCreation} (sound : SessionSound m)
include sound

theorem planCloses_le_one (plan : Nat) : m.core.objects.planCloses plan ≤ 1 := by
  have balance := sound.ledger.plans plan
  have handedOut : handed m.core.objects.plans plan ≤ 1 := by
    unfold handed
    split <;> omega
  omega

theorem debuggerCloses_le_one (dbg : Nat) :
    m.core.objects.debuggerCloses dbg ≤ 1 := by
  have balance := sound.ledger.debuggers dbg
  have handedOut : handed m.core.objects.debuggers dbg ≤ 1 := by
    unfold handed
    split <;> omega
  omega

theorem not_closed_of_held
    (held : m.core.session.plan = some plan ∨ m.core.session.debugPlan = some plan) :
    m.core.objects.planCloses plan = 0 := by
  have balance := sound.ledger.plans plan
  have handedOut : handed m.core.objects.plans plan ≤ 1 := by
    unfold handed
    split <;> omega
  have holder : 1 ≤ m.planHeld plan := by
    unfold SessionMachine.planHeld Session.holdsPlan
    rcases held with normal | debug
    · have one : holds m.core.session.plan plan = 1 := by simp [holds, normal]
      omega
    · have one : holds m.core.session.debugPlan plan = 1 := by simp [holds, debug]
      omega
  omega

/-- The Executions of a session have ended, and have closed the Universal sessions
they were handed, before its normal Plan is closed. -/
theorem executions_settled (published : m.entry ≠ none) (closed : m.core.objects.planCloses 0 ≠ 0)
    (found : m.executions[id]? = some entry) :
    entry.machine.execution.close.state = .finished := by
  have passed : m.passed SessionClosePC.taken = true := by
    by_contra running
    have held := sound.targets.normal published (by simpa using running)
    exact closed (sound.not_closed_of_held (.inl held))
  refine sound.children.settled ?_ id entry found
  exact SessionMachine.passed_mono (fun taken =>
    SessionClosePC.settled_of_released (SessionClosePC.released_of_taken taken)) passed

theorem released_of_closed
    (closed : m.core.objects.planCloses plan ≠ 0) (member : debug ∈ m.core.debugs)
    (target : debug.runtime.target.plan = some plan) : debug.released = true := by
  by_contra unreleased
  obtain ⟨leased, known, current⟩ :=
    sound.targets.debugs debug member (by simpa using unreleased)
  rw [target] at known
  cases known
  exact closed (sound.not_closed_of_held (.inr current))

theorem not_leased_of_closed
    (closed : m.core.objects.planCloses plan ≠ 0) (member : creation ∈ m.creators) :
    creation.pc.target ≠ some plan := by
  intro target
  have current := sound.targets.creators creation member plan target
  exact closed (sound.not_closed_of_held (.inr current))

theorem terminal_of_finished (found : m.executions[id]? = some entry)
    (finished : entry.machine.execution.close.state = .finished) :
    entry.machine.execution.state.terminal = true :=
  (sound.children.sound id entry found).machine.teardown.finished finished

end

end SessionSound

/-! ## After the result is published -/

namespace SessionSound

section

variable {test : SessionClosePC → Bool} {dbg : Nat} (sound : SessionSound m)
  (finished : m.gate.close.state = .finished)
include sound finished

theorem passed_of_finished (last : test .removeEntry = true) : m.passed test = true := by
  rcases sound.ownership.finished finished with none | removing
  · simp [SessionMachine.passed, none, CloseOperation.finished, finished]
  · rw [SessionMachine.passed_of_worker removing]
    exact last

theorem execution_finished (found : m.executions[id]? = some entry) :
    entry.machine.execution.close.state = .finished :=
  sound.children.settled (sound.passed_of_finished finished rfl) id entry found

theorem debug_released (member : debug ∈ m.core.debugs) : debug.released = true := by
  have none := sound.drained.released (sound.passed_of_finished finished rfl)
  have leases := sound.ledger.leases
  have leased := weight_le_tally DebugRuntime.leased member
  by_contra unreleased
  simp [DebugRuntime.leased, unreleased] at leased
  omega

theorem plan_closed (returned : plan < m.core.objects.plans) :
    m.core.objects.planCloses plan = 1 := by
  have creators := sound.quiesced.done (sound.passed_of_finished finished rfl)
  obtain ⟨normal, debug⟩ := sound.drained.taken (sound.passed_of_finished finished rfl)
  have owner : m.workerHolds plan = 0 := by
    rcases sound.ownership.finished finished with none | removing
    · simp [SessionMachine.workerHolds, none]
    · simp [SessionMachine.workerHolds, removing, SessionClosePC.holdsPlan]
  have balance := sound.ledger.plans plan
  simp only [SessionMachine.planHeld, Session.holdsPlan, normal, debug, holds_none,
    creators, tally_nil, owner, handed, if_pos returned] at balance
  omega

theorem debugger_closed (returned : dbg < m.core.objects.debuggers) :
    m.core.objects.debuggerCloses dbg = 1 := by
  have creators := sound.quiesced.done (sound.passed_of_finished finished rfl)
  have unheld : tally (DebugRuntime.holdsDebugger dbg) m.core.debugs = 0 := by
    apply tally_eq_zero
    intro debug member
    have released := sound.debug_released finished member
    have done := (sound.ledger.debugs debug member).released released
    simp [DebugRuntime.holdsDebugger, done]
  have balance := sound.ledger.debuggers dbg
  simp only [SessionMachine.debuggerHeld, creators, tally_nil, unheld, handed,
    if_pos returned] at balance
  omega

end

theorem rejects (sound : SessionSound m) (busy : m.gate.close.state ≠ .idle)
    (debug : Bool) (input : RuntimeInput) (registryClosed : Bool) :
    m.step (.beginCreate debug input registryClosed) = some m := by
  have inactive : m.active = false := by
    unfold SessionMachine.active
    simp only [decide_eq_false_iff_not]
    intro active
    exact busy ((sound.ownership.entry _ active).1 rfl)
  simp [SessionMachine.step, SessionMachine.beginCreate, inactive]

end SessionSound

/-! ## No close error is lost -/

/-- What the owner has joined so far, once it has collected its children. -/
def SessionClosePC.result : SessionClosePC → Option GoError
  | .finishChildren result | .hooks _ result | .samplePlans result
  | .awaitCompile _ _ result | .awaitRuntimes _ result | .takePlans result
  | .closePlan _ _ result | .closeDebugPlan _ result | .finishClose result => some result
  | _ => none

/-- The entry is finished and its error is part of the result. -/
def ExecutionEntry.JoinedInto (entry : ExecutionEntry) (result : GoError) : Prop :=
  entry.machine.execution.close.state = .finished ∧ entry.machine.execution.close.err ⊆ result

/-- The owner collects the close errors of all Executions but the `spared` ones,
which had left the registry before the close operation began. -/
structure Collecting (spared : Nat → Prop) (m : SessionMachine) : Prop where
  busy : m.gate.close.state ≠ .idle
  retained :
    m.passed SessionClosePC.collected = false →
      ∀ (id : Nat) (entry : ExecutionEntry), m.executions[id]? = some entry →
        ¬spared id → id ∈ m.registry.children
  waiting :
    ∀ remaining result, m.worker = some (.awaitChildren remaining result) →
      ∀ (id : Nat) (entry : ExecutionEntry), m.executions[id]? = some entry →
        ¬spared id → id ∈ remaining ∨ entry.JoinedInto result
  joined :
    ∀ pc result, m.worker = some pc → pc.result = some result →
      ∀ (id : Nat) (entry : ExecutionEntry), m.executions[id]? = some entry →
        ¬spared id → entry.JoinedInto result
  published :
    m.gate.close.state = .finished →
      ∀ (id : Nat) (entry : ExecutionEntry), m.executions[id]? = some entry →
        ¬spared id → entry.JoinedInto m.gate.close.err

theorem ExecutionEntry.JoinedInto.evolve {result : GoError}
    {before after : ExecutionEntry} (joined : before.JoinedInto result)
    (evolves : before.Evolves after) : after.JoinedInto result := by
  obtain ⟨finished, included⟩ := joined
  unfold ExecutionEntry.JoinedInto
  rw [evolves.close.finished finished]
  exact ⟨finished, included⟩

theorem ExecutionEntry.JoinedInto.mono {result : GoError}
    (joined : entry.JoinedInto result) (grows : result ⊆ more) :
    entry.JoinedInto more :=
  ⟨joined.1, List.Subset.trans joined.2 grows⟩

namespace Collecting

/-- When the close operation begins, every Execution that has not been removed is in
the group of the session. -/
theorem begin {entry : SessionEntry} (sound : SessionSound m)
    (published : m.entry = some entry) (active : entry.state = .active) :
    Collecting
      (fun id => ∃ before, m.executions[id]? = some before ∧ before.removed = true)
      { m with
        core := { m.core with
          session := { m.core.session with
            children := m.core.session.children.beginClose.2 } }
        entry := some { entry with state := .closing }
        worker := some .waitForCreates } := by
  have idle := (sound.ownership.entry entry published).1 active
  have running :=
    SessionMachine.passed_of_idle sound.ownership idle SessionClosePC.collected
  have state : m.core.session.children.beginClose.2.close.state = .started := by
    rw [Gate.beginClose_of_accepting idle]
  refine ⟨?_, ?_, ?_, ?_, ?_⟩
  · intro same
    cases state.symm.trans same
  · intro _ id present found unspared
    apply sound.children.kept running id present found
    cases removed : present.removed with
    | false => rfl
    | true => exact absurd ⟨present, found, removed⟩ unspared
  · nofun
  · intro pc result owner joins
    cases owner
    cases joins
  · intro finished
    cases state.symm.trans finished

theorem of_step (sound : SessionSound m) (taken : m.step action = some next)
    (idle : m.gate.close.state = .idle) (busy : next.gate.close.state ≠ .idle) :
    Collecting
      (fun id => ∃ before, m.executions[id]? = some before ∧ before.removed = true) next := by
  have unchanged : ∀ {other : SessionMachine}, other.gate.close = m.gate.close →
      other.gate.close.state = .idle := by
    intro other same
    rw [same]
    exact idle
  cases SessionEffect.of_step taken with
  | beginClose published active => exact Collecting.begin sound published active
  | enroll => exact absurd (unchanged (Gate.beginCreate_of_accepting idle).2.2) busy
  | create creator stepped =>
    have move := CreateMove.of_createStep
      (sound.ledger.credible _ (mem_of_getElem? creator)) stepped
    exact absurd (unchanged (congrArg Gate.close move.frame.1)) busy
  | finishCreate _ ended =>
    exact absurd (unchanged (Gate.endCreate_ok ended).2.1) busy
  | @debugClose _ _ _ _ _ _ effect =>
    exact absurd (unchanged
      (congrArg Gate.close (SessionCore.applyDebugEffect_frame _ effect).1)) busy
  | close owner =>
    have none := sound.ownership.idle idle
    simp [owner] at none
  | _ => exact absurd (unchanged rfl) busy

section

variable {spared : Nat → Prop} {other : SessionMachine} {moved : ExecutionEntry}
  {registry : ExecutionRegistry} (collecting : Collecting spared m)
include collecting

theorem congr (worker : other.worker = m.worker) (close : other.gate.close = m.gate.close)
    (executions : other.executions = m.executions)
    (registry : other.registry = m.registry) : Collecting spared other := by
  constructor
  · rw [close]
    exact collecting.busy
  · rw [SessionMachine.passed_congr worker close, registry, executions]
    exact collecting.retained
  · rw [worker, executions]
    exact collecting.waiting
  · rw [worker, executions]
    exact collecting.joined
  · rw [close, executions]
    exact collecting.published

/-- One Execution moves forward while the group stays as it is or, once collected,
shrinks. -/
theorem setEntry (found : m.executions[id]? = some entry) (evolves : entry.Evolves moved)
    (kept : m.passed SessionClosePC.collected = false →
      registry.children = m.registry.children) :
    Collecting spared { m with
      executions := m.executions.set id moved
      registry := registry } := by
  have keeps : ∀ {result : GoError},
      (∀ (other : Nat) (present : ExecutionEntry),
        m.executions[other]? = some present → ¬spared other → present.JoinedInto result) →
      ∀ (other : Nat) (present : ExecutionEntry),
        (m.executions.set id moved)[other]? = some present → ¬spared other →
          present.JoinedInto result := by
    intro result joined other present located unspared
    rcases getElem?_set_cases located with ⟨rfl, rfl⟩ | ⟨_, before⟩
    · exact (joined other entry found unspared).evolve evolves
    · exact joined other present before unspared
  refine ⟨collecting.busy, ?_, ?_, ?_, ?_⟩
  · intro running other present located unspared
    dsimp only
    rw [kept running]
    rcases getElem?_set_cases located with ⟨rfl, rfl⟩ | ⟨_, before⟩
    · exact collecting.retained running other entry found unspared
    · exact collecting.retained running other present before unspared
  · intro remaining result owner other present located unspared
    rcases getElem?_set_cases located with ⟨rfl, rfl⟩ | ⟨_, before⟩
    · rcases collecting.waiting remaining result owner other entry found unspared with
        waits | joined
      · exact .inl waits
      · exact .inr (joined.evolve evolves)
    · exact collecting.waiting remaining result owner other present before unspared
  · intro pc result owner joins
    exact keeps (collecting.joined pc result owner joins)
  · intro finished
    exact keeps (collecting.published finished)

section

variable {pc : SessionClosePC} (sound : SessionSound m)
include sound

theorem advance {result : GoError} {pc' : SessionClosePC} (owner : m.worker = some pc)
    (joins : pc.result = some result) (goesOn : next.worker = some pc')
    (joinsMore : pc'.result = some more) (grows : result ⊆ more)
    (gate : next.gate = m.gate) (executions : next.executions = m.executions) :
    Collecting spared next := by
  have started : m.gate.close.state = .started := by
    apply sound.ownership.started_of_worker owner
    intro last
    subst last
    cases joins
  have collected : pc'.collected = true := by
    cases pc' <;> simp_all [SessionClosePC.result, SessionClosePC.collected]
  refine ⟨?_, ?_, ?_, ?_, ?_⟩
  · rw [gate, started]
    simp
  · intro running
    rw [SessionMachine.passed_of_worker goesOn, collected] at running
    cases running
  · intro remaining waited awaits
    rw [goesOn] at awaits
    cases awaits
    cases joinsMore
  · intro current known same joinsKnown
    rw [goesOn] at same
    cases same
    rw [joinsMore] at joinsKnown
    cases joinsKnown
    intro id entry found unspared
    rw [executions] at found
    exact (collecting.joined pc result owner joins id entry found unspared).mono grows
  · intro finished
    rw [gate, started] at finished
    cases finished

theorem close (owner : m.worker = some pc) (move : CloseMove m pc next) :
    Collecting spared next := by
  have retained : pc.collected = false →
      ∀ (id : Nat) (entry : ExecutionEntry), m.executions[id]? = some entry →
        ¬spared id → id ∈ m.registry.children := by
    intro running
    apply collecting.retained
    rw [SessionMachine.passed_of_worker owner]
    exact running
  have unpublished : pc ≠ .removeEntry → ¬m.gate.close.state = .finished := by
    intro working finished
    have started := sound.ownership.started_of_worker owner working
    cases started.symm.trans finished
  cases move with
  | capture | created =>
    refine ⟨collecting.busy, fun _ => retained rfl, ?_, ?_, collecting.published⟩
    · simp
    · intro current result goesOn joins
      cases goesOn
      cases joins
  | begin visits begun =>
    obtain ⟨_, _, removed, _⟩ :=
      ExecutionRegistry.beginCloseAll_ok sound.children.sound begun
    refine ⟨collecting.busy, fun running => (by cases running), ?_, ?_, ?_⟩
    · intro remaining result goesOn id entry found unspared
      cases goesOn
      obtain ⟨before, known, _⟩ := removed id entry found
      exact .inl (visits.mem_iff.mpr (retained rfl id before known unspared))
    · intro current result goesOn joins
      cases goesOn
      cases joins
    · intro finished
      exact absurd finished (unpublished (by simp))
  | @child _ _ result _ found finished =>
    refine ⟨collecting.busy, fun running => (by cases running), ?_, ?_, ?_⟩
    · intro remaining more goesOn other present located unspared
      cases goesOn
      rcases collecting.waiting _ result owner other present located unspared with
        waits | joined
      · rcases mem_cons.mp waits with rfl | later
        · rw [found] at located
          cases located
          exact .inr ⟨finished, GoError.subset_join_right _ _⟩
        · exact .inl later
      · exact .inr (joined.mono (GoError.subset_join_left _ _))
    · intro current more goesOn joins
      cases goesOn
      cases joins
    · intro published
      exact absurd published (unpublished (by simp))
  | @collected result =>
    refine ⟨collecting.busy, fun running => (by cases running), ?_, ?_, ?_⟩
    · simp
    · intro current more goesOn joins id entry found unspared
      cases goesOn
      cases joins
      rcases collecting.waiting [] result owner id entry found unspared with
        waits | joined
      · cases waits
      · exact joined
    · intro published
      exact absurd published (unpublished (by simp))
  | hook =>
    exact collecting.advance sound owner rfl rfl rfl (GoError.subset_join_left _ _)
      rfl rfl
  | @closePlan _ _ plan _ grows =>
    obtain ⟨session, _, executions, _⟩ := m.closeTaken_frame plan
    exact collecting.advance sound owner rfl rfl rfl grows
      (congrArg Session.children session) executions
  | @closeDebugPlan _ _ debugPlan grows =>
    obtain ⟨session, _, executions, _⟩ := m.closeTaken_frame debugPlan
    exact collecting.advance sound owner rfl rfl rfl grows
      (congrArg Session.children session) executions
  | @finish result _ finished =>
    obtain ⟨_, _, rfl⟩ := Gate.finishClose_ok finished
    refine ⟨by simp, fun running => (by cases running), ?_, ?_, ?_⟩
    · simp
    · intro current more goesOn joins
      cases goesOn
      cases joins
    · intro _
      exact collecting.joined _ result owner rfl
  | remove =>
    have finished := sound.ownership.finished_of_worker owner
    refine ⟨collecting.busy, ?_, ?_, ?_, collecting.published⟩
    · intro running
      have unfinished : m.gate.close.finished = false := running
      simp [CloseOperation.finished, finished] at unfinished
    · simp
    · simp
  | _ =>
    exact collecting.advance sound owner rfl rfl rfl (List.Subset.refl _) rfl rfl

theorem step (taken : m.step action = some next) : Collecting spared next := by
  have accepting : m.gate.accepting = false := by
    simpa [Gate.accepting] using collecting.busy
  cases SessionEffect.of_step taken with
  | enroll active =>
    exact absurd ((sound.ownership.entry _ active).1 rfl) collecting.busy
  | addExecution creator added =>
    have running := sound.quiesced.not_passed creator
    have uncollected := sound.quiesced.not_collected creator
    obtain ⟨_, grown⟩ :=
      ExecutionRegistry.add_ok (sound.children.isOpen uncollected) added
    have contradiction : ∀ {pc : SessionClosePC}, m.worker = some pc →
        ¬pc.createsDone = true := by
      intro pc owner passed
      rw [SessionMachine.passed_of_worker owner, passed] at running
      cases running
    refine ⟨collecting.busy, ?_, ?_, ?_, ?_⟩
    · intro _ id entry found unspared
      dsimp only
      rw [grown]
      rcases getElem?_concat_cases found with ⟨rfl, _⟩ | before
      · exact mem_append_right _ mem_cons_self
      · exact mem_append_left _ (collecting.retained uncollected id entry before unspared)
    · intro remaining result owner
      exact absurd rfl (contradiction owner)
    · intro pc result owner joins
      refine absurd ?_ (contradiction owner)
      cases pc <;> simp_all [SessionClosePC.result, SessionClosePC.createsDone]
    · intro finished
      have done := sound.passed_of_finished finished
        (rfl : SessionClosePC.createsDone .removeEntry = true)
      rw [running] at done
      cases done
  | create creator stepped =>
    have move := CreateMove.of_createStep
      (sound.ledger.credible _ (mem_of_getElem? creator)) stepped
    exact collecting.congr rfl (congrArg Gate.close move.frame.1) rfl rfl
  | finishCreate _ ended =>
    exact collecting.congr rfl (Gate.endCreate_ok ended).2.1 rfl rfl
  | @execution _ entry _ _ id opens found stepped =>
    exact collecting.setEntry found
      ((sound.children.sound id entry found).step opens stepped).2 fun _ => rfl
  | @beginExecutionClose entry _ _ id found begins =>
    exact collecting.setEntry found
      ((sound.children.sound id entry found).beginCloseLocked begins).2.1 fun _ => rfl
  | removeExecution found =>
    refine collecting.setEntry found ⟨.refl _, fun _ => rfl⟩ ?_
    intro running
    have closeStarted : (!m.core.session.children.accepting) = true := by
      simpa using accepting
    rw [closeStarted]
    exact ExecutionRegistry.children_finishClose (sound.children.isOpen running)
  | @debugClose _ _ _ _ _ _ effect =>
    exact collecting.congr rfl
      (congrArg Gate.close (SessionCore.applyDebugEffect_frame _ effect).1) rfl rfl
  | @beginClose entry published active =>
    exact absurd ((sound.ownership.entry entry published).1 active) collecting.busy
  | close owner move => exact collecting.close sound owner move
  | _ => exact collecting.congr rfl rfl rfl rfl

end

end

end Collecting

end Ferretd.Exec

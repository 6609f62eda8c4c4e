import Ferretd.Exec.SessionProgress

/-!
# The Executions of a session

An Execution leaves the group of its session only after its own close operation has
finished, so the owner of the session's close waits for every Execution that was ever
added.
-/

namespace Ferretd.Exec

open Library ExecutionRegistry List

/-! ## Entries -/

structure ExecutionEntry.Sound (entry : ExecutionEntry) : Prop where
  machine : ExecutionSound entry.machine
  active : entry.state = .active ↔ entry.machine.execution.close.state = .idle
  removed : entry.removed = true → entry.machine.execution.close.state = .finished

structure ExecutionEntry.Evolves (before after : ExecutionEntry) : Prop where
  close : before.machine.execution.close.Evolves after.machine.execution.close
  removed : before.removed = true → after.removed = true

namespace ExecutionEntry

variable {owner : Bool} {entry begun : ExecutionEntry}

theorem Evolves.refl (entry : ExecutionEntry) : entry.Evolves entry :=
  ⟨.refl _, id⟩

theorem Evolves.trans {first second third : ExecutionEntry}
    (left : first.Evolves second) (right : second.Evolves third) :
    first.Evolves third :=
  ⟨left.close.trans right.close, fun removed => right.removed (left.removed removed)⟩

variable {action : ExecutionAction}

theorem close_idle_of_step {m next : ExecutionMachine} (sound : ExecutionSound m)
    (opens : action ≠ .beginClose) (idle : m.execution.close.state = .idle)
    (taken : m.step action = some next) : next.execution.close.state = .idle := by
  have unowned : m.closer = none := sound.teardown.owner.mpr (by simp [idle])
  cases Effect.of_step taken with
  | start accepted =>
    exact (congrArg CloseOperation.state (Execution.start_ok accepted).2.2.2).trans idle
  | cancel =>
    exact (congrArg CloseOperation.state m.execution.cancel_frame.2.2).trans idle
  | @finish _ _ result =>
    exact (congrArg CloseOperation.state (m.execution.finish_frame result).2).trans idle
  | beginClose => exact absurd rfl opens
  | settle closer | complete closer => simp [unowned] at closer
  | _ => exact idle

theorem Sound.step {moved : ExecutionMachine} (sound : entry.Sound)
    (opens : action ≠ .beginClose) (taken : entry.machine.step action = some moved) :
    { entry with machine := moved }.Sound ∧ entry.Evolves { entry with machine := moved } := by
  have evolves := close_evolves taken
  refine ⟨⟨sound.machine.step taken, ?_, ?_⟩, ⟨evolves, id⟩⟩
  · dsimp only
    rw [sound.active]
    constructor
    · intro idle
      exact close_idle_of_step sound.machine opens idle taken
    · intro idle
      by_contra busy
      exact evolves.started busy idle
  · intro removed
    dsimp only
    rw [evolves.finished (sound.removed removed)]
    exact sound.removed removed

theorem Sound.beginCloseLocked (sound : entry.Sound)
    (begins : entry.beginCloseLocked = .ok (owner, begun)) :
    begun.Sound ∧ entry.Evolves begun ∧ begun.removed = entry.removed ∧
      begun.machine.execution.close.state ≠ .idle := by
  simp only [ExecutionEntry.beginCloseLocked] at begins
  split at begins
  next closing =>
    cases begins
    refine ⟨sound, Evolves.refl entry, rfl, ?_⟩
    intro idle
    have active := sound.active.2 idle
    simp [closing] at active
  · split at begins
    next starts =>
      cases begins
      have taken : entry.machine.step .beginClose = some entry.machine.beginClose := by
        simp [ExecutionMachine.step, starts]
      have evolves := close_evolves taken
      have idle : entry.machine.execution.close.state = .idle := by
        by_contra busy
        simp [Execution.beginClose, CloseOperation.begin_of_started busy] at starts
      have busy : entry.machine.beginClose.execution.close.state ≠ .idle := by
        simp [ExecutionMachine.beginClose, Execution.beginClose,
          CloseOperation.begin_of_idle idle]
      refine ⟨⟨sound.machine.step taken, ?_, ?_⟩, ⟨evolves, id⟩, rfl, busy⟩
      · simp [busy]
      · intro removed
        have finished := sound.removed removed
        simp [idle] at finished
    · cases begins

end ExecutionEntry

/-! ## Pools of entries -/

section

variable (executions : List ExecutionEntry)

def AllSound : Prop :=
  ∀ (id : Nat) (entry : ExecutionEntry), executions[id]? = some entry → entry.Sound

def PoolEvolves (before after : List ExecutionEntry) : Prop :=
  ∀ (id : Nat) (entry : ExecutionEntry), before[id]? = some entry →
    ∃ later, after[id]? = some later ∧ entry.Evolves later

theorem PoolEvolves.refl :
    PoolEvolves executions executions :=
  fun _ entry found => ⟨entry, found, ExecutionEntry.Evolves.refl entry⟩

theorem PoolEvolves.trans {first second third : List ExecutionEntry}
    (left : PoolEvolves first second) (right : PoolEvolves second third) :
    PoolEvolves first third := by
  intro id entry found
  obtain ⟨middle, between, forward⟩ := left id entry found
  obtain ⟨later, reached, further⟩ := right id middle between
  exact ⟨later, reached, forward.trans further⟩

theorem PoolEvolves.concat (fresh : ExecutionEntry) :
    PoolEvolves executions (executions ++ [fresh]) := by
  intro id entry found
  have inside := (List.getElem?_eq_some_iff.mp found).1
  refine ⟨entry, ?_, ExecutionEntry.Evolves.refl entry⟩
  rw [getElem?_append_left inside]
  exact found

end

variable {entry next : ExecutionEntry} {order : List Nat} {executions begun : List ExecutionEntry}

theorem PoolEvolves.set {id : Nat}
    (found : executions[id]? = some entry) (evolves : entry.Evolves next) :
    PoolEvolves executions (executions.set id next) := by
  intro other before known
  by_cases same : id = other
  · subst same
    rw [found] at known
    cases known
    have inside := (List.getElem?_eq_some_iff.mp found).1
    exact ⟨next, getElem?_set_self inside, evolves⟩
  · refine ⟨before, ?_, ExecutionEntry.Evolves.refl before⟩
    rw [getElem?_set_ne same]
    exact known

theorem AllSound.set {id : Nat} (sound : AllSound executions) (nextSound : next.Sound) :
    AllSound (executions.set id next) := by
  intro other entry found
  rcases getElem?_set_cases found with ⟨_, rfl⟩ | ⟨_, before⟩
  · exact nextSound
  · exact sound other entry before

theorem ExecutionRegistry.beginCloseAll_ok (sound : AllSound executions)
    (begins : beginCloseAll executions order = .ok begun) :
    AllSound begun ∧ PoolEvolves executions begun ∧
      (∀ (id : Nat) (entry : ExecutionEntry), begun[id]? = some entry →
        ∃ before, executions[id]? = some before ∧ entry.removed = before.removed) ∧
      ∀ id ∈ order, ∀ entry : ExecutionEntry, begun[id]? = some entry →
        entry.machine.execution.close.state ≠ .idle := by
  -- The first visit of a child begins its close; the later ones keep it begun.
  induction order generalizing executions with
  | nil =>
    cases begins
    refine ⟨sound, .refl _, fun id entry found => ⟨entry, found, rfl⟩, ?_⟩
    intro id visited
    cases visited
  | cons head _ ih =>
    cases found : executions[head]? with
    | none =>
      simp only [beginCloseAll, found] at begins
      obtain ⟨allSound, evolves, removed, closing⟩ := ih sound begins
      refine ⟨allSound, evolves, removed, ?_⟩
      intro id visited entry present
      rcases mem_cons.mp visited with rfl | later
      · obtain ⟨before, known, _⟩ := removed id entry present
        simp [found] at known
      · exact closing id later entry present
    | some entry =>
      cases locked : entry.beginCloseLocked with
      | error => simp [beginCloseAll, found, locked] at begins
      | ok result =>
        obtain ⟨owner, first⟩ := result
        simp only [beginCloseAll, found, locked] at begins
        obtain ⟨firstSound, forward, sameRemoved, busy⟩ :=
          (sound head entry found).beginCloseLocked locked
        obtain ⟨allSound, evolves, removed, closing⟩ :=
          ih (sound.set firstSound) begins
        refine ⟨allSound, (PoolEvolves.set found forward).trans evolves, ?_, ?_⟩
        · intro id last present
          obtain ⟨middle, between, same⟩ := removed id last present
          rcases getElem?_set_cases between with ⟨rfl, rfl⟩ | ⟨_, before⟩
          · exact ⟨entry, found, same.trans sameRemoved⟩
          · exact ⟨middle, before, same⟩
        · intro id visited last present
          rcases mem_cons.mp visited with rfl | later
          · have inside := (List.getElem?_eq_some_iff.mp found).1
            obtain ⟨final, reached, further⟩ :=
              evolves id first (getElem?_set_self inside)
            rw [present] at reached
            cases reached
            exact further.close.started busy
          · exact closing id later last present

/-! ## The registry -/

namespace ExecutionRegistry

variable {registry next : ExecutionRegistry} {id other : Nat}

/-- The group of the session has not been handed to its close operation. -/
def Open (registry : ExecutionRegistry) : Prop :=
  ∀ group, registry.group = some group → group.state = .active

theorem add_ok (isOpen : registry.Open) (added : registry.add id = .ok next) :
    next.Open ∧ next.children = registry.children ++ [id] := by
  unfold add at added
  split at added
  · cases added
  cases known : registry.group with
  | none =>
    simp only [known] at added
    cases added
    refine ⟨?_, ?_⟩
    · intro group same
      cases same
      rfl
    · simp [children, known]
  | some group =>
    simp only [known, isOpen group known, ne_eq, not_true_eq_false, if_false] at added
    cases added
    refine ⟨?_, ?_⟩
    · intro group same
      cases same
      rfl
    · simp [children, known]

theorem add_of_fresh (isOpen : registry.Open) (fresh : id ∉ registry.entries) :
    ∃ next, registry.add id = .ok next := by
  unfold add
  rw [if_neg fresh]
  split
  · exact ⟨_, rfl⟩
  next group known =>
    rw [if_neg (not_not.mpr (isOpen group known))]
    exact ⟨_, rfl⟩

theorem entries_add (added : registry.add id = .ok next) :
    next.entries = registry.entries ++ [id] := by
  unfold add at added
  split at added
  · cases added
  split at added
  · cases added
    rfl
  split at added
  · cases added
  · cases added
    rfl

theorem entries_beginSessionClose : registry.beginSessionClose.entries = registry.entries := by
  unfold beginSessionClose
  split
  · rfl
  · split <;> rfl

theorem entries_finishClose (closeStarted : Bool) :
    (registry.finishClose id closeStarted).entries = registry.entries.erase id := by
  unfold finishClose
  dsimp only
  split
  · rfl
  split
  · rfl
  · split <;> rfl

theorem length_beginCloseAll (begins : beginCloseAll executions order = .ok begun) :
    begun.length = executions.length := by
  induction order generalizing executions with
  | nil =>
    cases begins
    rfl
  | cons head _ ih =>
    unfold beginCloseAll at begins
    split at begins
    · exact ih begins
    split at begins
    · cases begins
    · rw [ih begins, length_set]

theorem mem_children_finishClose (closeStarted : Bool) (different : other ≠ id)
    (present : other ∈ registry.children) :
    other ∈ (registry.finishClose id closeStarted).children := by
  cases known : registry.group with
  | none => simp [children, known] at present
  | some group =>
    have member : other ∈ group.entries := by simpa [children, known] using present
    have kept : other ∈ group.entries.erase id :=
      (mem_erase_of_ne different).mpr member
    simp only [finishClose, known]
    split
    · exact member
    split
    next emptied =>
      simp [emptied.2] at kept
    · exact kept

theorem children_finishClose (isOpen : registry.Open) :
    (registry.finishClose id true).children = registry.children := by
  cases known : registry.group with
  | none => simp [finishClose, children, known]
  | some group => simp [finishClose, children, known, isOpen group known]

theorem Open.finishClose (isOpen : registry.Open) (closeStarted : Bool) :
    (registry.finishClose id closeStarted).Open := by
  intro later same
  cases known : registry.group with
  | none => simp [ExecutionRegistry.finishClose, known] at same
  | some group =>
    have active := isOpen group known
    simp only [ExecutionRegistry.finishClose, known] at same
    split at same
    · cases same
      exact active
    split at same
    · cases same
    · cases same
      exact active

end ExecutionRegistry

/-! ## The children of a session -/

structure Children (m : SessionMachine) : Prop where
  sound : AllSound m.executions
  isOpen : m.passed SessionClosePC.collected = false → m.registry.Open
  kept :
    m.passed SessionClosePC.collected = false →
      ∀ (id : Nat) (entry : ExecutionEntry), m.executions[id]? = some entry →
        entry.removed = false → id ∈ m.registry.children
  waiting :
    ∀ remaining result, m.worker = some (.awaitChildren remaining result) →
      ∀ (id : Nat) (entry : ExecutionEntry), m.executions[id]? = some entry →
        id ∈ remaining ∨ entry.machine.execution.close.state = .finished
  settled :
    m.passed SessionClosePC.settled = true →
      ∀ (id : Nat) (entry : ExecutionEntry), m.executions[id]? = some entry →
        entry.machine.execution.close.state = .finished

theorem children_init (id ws hooks : Nat) (materialize : GoError → RuntimeFailure) :
    Children (.init id ws hooks materialize) := by
  refine ⟨?_, ?_, ?_, ?_, ?_⟩
  · intro id entry found
    cases found
  · intro _ group known
    cases known
  · intro _ id entry found
    cases found
  · intro remaining result owner
    cases owner
  · intro _ id entry found
    cases found

namespace Children

variable {m next other : SessionMachine}

theorem congr (children : Children m) (worker : other.worker = m.worker)
    (close : other.gate.close = m.gate.close) (executions : other.executions = m.executions)
    (registry : other.registry = m.registry) : Children other := by
  constructor
  · rw [executions]
    exact children.sound
  · rw [SessionMachine.passed_congr worker close, registry]
    exact children.isOpen
  · rw [SessionMachine.passed_congr worker close, registry, executions]
    exact children.kept
  · rw [worker, executions]
    exact children.waiting
  · rw [SessionMachine.passed_congr worker close, executions]
    exact children.settled

variable {registry : ExecutionRegistry}

section

variable {moved : ExecutionEntry} {index : Nat} {input : RuntimeInput} {pc : SessionClosePC}
  {action : SessionAction} (children : Children m)
include children

theorem setEntry {id : Nat} (found : m.executions[id]? = some entry) (sound : moved.Sound)
    (evolves : entry.Evolves moved) (isOpen : m.registry.Open → registry.Open)
    (kept : ∀ other ∈ m.registry.children, other ≠ id ∨ moved.removed = false →
      other ∈ registry.children) :
    Children { m with
      executions := m.executions.set id moved
      registry := registry } := by
  refine ⟨children.sound.set sound, fun running => isOpen (children.isOpen running), ?_, ?_, ?_⟩
  · intro running other present located unremoved
    rcases getElem?_set_cases located with ⟨rfl, rfl⟩ | ⟨different, before⟩
    · have unremovedBefore : entry.removed = false := by
        by_contra removed
        rw [evolves.removed (by simpa using removed)] at unremoved
        cases unremoved
      exact kept other (children.kept running other entry found unremovedBefore) (.inr unremoved)
    · exact kept other (children.kept running other present before unremoved) (.inl different)
  · intro remaining result owner other present located
    rcases getElem?_set_cases located with ⟨rfl, rfl⟩ | ⟨_, before⟩
    · rcases children.waiting remaining result owner other entry found with
        waits | finished
      · exact .inl waits
      · right
        rw [evolves.close.finished finished]
        exact finished
    · exact children.waiting remaining result owner other present before
  · intro passed other present located
    rcases getElem?_set_cases located with ⟨rfl, rfl⟩ | ⟨_, before⟩
    · have finished := children.settled passed other entry found
      rw [evolves.close.finished finished]
      exact finished
    · exact children.settled passed other present before

theorem addExecution (quiesced : Quiesced m)
    (creator : m.creators[index]? = some ⟨input, .addExecution⟩)
    (added : m.registry.add m.executions.length = .ok registry) :
    Children { m with
      creators := m.creators.set index ⟨input, .finish []⟩
      executions := m.executions ++
        [⟨.init m.executions.length m.core.session.runtimeTarget input
          m.core.session.materialize, .active, false⟩]
      registry := registry } := by
  have running := quiesced.not_passed creator
  have uncollected := quiesced.not_collected creator
  obtain ⟨isOpen, grown⟩ :=
    ExecutionRegistry.add_ok (children.isOpen uncollected) added
  refine ⟨?_, fun _ => isOpen, ?_, ?_, ?_⟩
  · intro id entry found
    rcases getElem?_concat_cases found with ⟨_, rfl⟩ | before
    · exact ⟨executionSound_init _ _ _ _, by simp [ExecutionMachine.init,
        Execution.newExecution, Execution.publishLocked, CloseOperation.new], by simp⟩
    · exact children.sound id entry before
  · intro _ id entry found unremoved
    dsimp only
    rw [grown]
    rcases getElem?_concat_cases found with ⟨rfl, _⟩ | before
    · exact mem_append_right _ mem_cons_self
    · exact mem_append_left _ (children.kept uncollected id entry before unremoved)
  · intro remaining result owner
    have passed := SessionMachine.passed_of_worker owner SessionClosePC.createsDone
    have same : m.passed SessionClosePC.createsDone = true := passed
    rw [running] at same
    cases same
  · intro passed
    have same : m.passed SessionClosePC.createsDone = true :=
      SessionMachine.passed_mono (fun settled => SessionClosePC.createsDone_of_collected
        (SessionClosePC.collected_of_settled settled)) passed
    rw [running] at same
    cases same

theorem close (ownership : Ownership m) (owner : m.worker = some pc) (move : CloseMove m pc next) :
    Children next := by
  have isOpen : pc.collected = false → m.registry.Open := by
    intro running
    apply children.isOpen
    rw [SessionMachine.passed_of_worker owner]
    exact running
  have kept : pc.collected = false →
      ∀ (id : Nat) (entry : ExecutionEntry), m.executions[id]? = some entry →
        entry.removed = false → id ∈ m.registry.children := by
    intro running
    apply children.kept
    rw [SessionMachine.passed_of_worker owner]
    exact running
  have settled : pc.settled = true →
      ∀ (id : Nat) (entry : ExecutionEntry), m.executions[id]? = some entry →
        entry.machine.execution.close.state = .finished := by
    intro passed
    apply children.settled
    rw [SessionMachine.passed_of_worker owner]
    exact passed
  cases move with
  | capture | created =>
    exact ⟨children.sound, fun _ => isOpen rfl, fun _ => kept rfl,
      fun _ _ goesOn => (by cases goesOn), fun passed => by cases passed⟩
  | begin visits begun =>
    obtain ⟨sound, evolves, removed, closing⟩ :=
      beginCloseAll_ok children.sound begun
    refine ⟨sound, fun running => (by cases running), fun running => (by cases running),
      ?_, fun passed => by cases passed⟩
    -- A child that is not visited has been removed before, so it is finished.
    intro remaining result goesOn id entry found
    cases goesOn
    obtain ⟨before, known, same⟩ := removed id entry found
    cases removedBefore : before.removed with
    | false => exact .inl (visits.mem_iff.mpr (kept rfl id before known removedBefore))
    | true => exact .inr ((sound id entry found).removed (same.trans removedBefore))
  | @child _ _ result _ found finished =>
    refine ⟨children.sound, fun running => (by cases running),
      fun running => (by cases running), ?_, fun passed => by cases passed⟩
    intro remaining joined goesOn other present located
    cases goesOn
    rcases children.waiting _ result owner other present located with waits | done
    · rcases mem_cons.mp waits with rfl | later
      · rw [found] at located
        cases located
        exact .inr finished
      · exact .inl later
    · exact .inr done
  | @collected result =>
    refine ⟨children.sound, fun running => (by cases running),
      fun running => (by cases running), fun _ _ goesOn => (by cases goesOn), ?_⟩
    intro _ id entry found
    rcases children.waiting [] result owner id entry found with waits | done
    · cases waits
    · exact done
  | @closePlan _ _ plan =>
    cases plan with
    | none | some =>
      exact ⟨children.sound, fun running => (by cases running),
        fun running => (by cases running), fun _ _ goesOn => (by cases goesOn),
        fun _ => settled rfl⟩
  | @closeDebugPlan _ _ debugPlan =>
    cases debugPlan with
    | none | some =>
      exact ⟨children.sound, fun running => (by cases running),
        fun running => (by cases running), fun _ _ goesOn => (by cases goesOn),
        fun _ => settled rfl⟩
  | remove =>
    have finished := ownership.finished_of_worker owner
    have running : ∀ {test : SessionClosePC → Bool}, ¬SessionMachine.passed { m with
          entry := m.entry.map fun entry => { entry with listed := false }
          worker := none } test = false := by
      intro test unfinished
      have contradiction : m.gate.close.finished = false := unfinished
      simp [CloseOperation.finished, finished] at contradiction
    exact ⟨children.sound, fun unfinished => absurd unfinished running,
      fun unfinished => absurd unfinished running,
      fun _ _ goesOn => (by cases goesOn), fun _ => settled rfl⟩
  | _ =>
    exact ⟨children.sound, fun running => (by cases running),
      fun running => (by cases running), fun _ _ goesOn => (by cases goesOn),
      fun _ => settled rfl⟩

theorem step (quiesced : Quiesced m)
    (ownership : Ownership m) (ledger : Ledger m) (taken : m.step action = some next) :
    Children next := by
  cases SessionEffect.of_step taken with
  | enroll active =>
    have idle := (ownership.entry _ active).1 rfl
    exact children.congr rfl (Gate.beginCreate_of_accepting idle).2.2 rfl rfl
  | addExecution creator added =>
    exact children.addExecution quiesced creator added
  | create creator stepped =>
    have move := CreateMove.of_createStep
      (ledger.credible _ (mem_of_getElem? creator)) stepped
    exact children.congr rfl (congrArg Gate.close move.frame.1) rfl rfl
  | finishCreate _ ended =>
    exact children.congr rfl (Gate.endCreate_ok ended).2.1 rfl rfl
  | @execution _ entry _ _ id opens found stepped =>
    obtain ⟨sound, evolves⟩ := (children.sound id entry found).step opens stepped
    exact children.setEntry found sound evolves (fun isOpen => isOpen)
      fun other member _ => member
  | @beginExecutionClose entry _ _ id found begins =>
    obtain ⟨sound, evolves, _⟩ :=
      (children.sound id entry found).beginCloseLocked begins
    exact children.setEntry found sound evolves (fun isOpen => isOpen)
      fun other member _ => member
  | @removeExecution entry id found finished =>
    have sound := children.sound id entry found
    have removedSound : { entry with removed := true }.Sound :=
      ⟨sound.machine, sound.active, fun _ => finished⟩
    refine children.setEntry found removedSound ⟨.refl _, fun _ => rfl⟩
      (fun isOpen => isOpen.finishClose _) ?_
    intro other member stays
    rcases stays with different | unremoved
    · exact ExecutionRegistry.mem_children_finishClose _ different member
    · cases unremoved
  | @debugClose _ _ _ _ _ _ effect =>
    exact children.congr rfl
      (congrArg Gate.close (SessionCore.applyDebugEffect_frame _ effect).1) rfl rfl
  | @beginClose entry published active =>
    have idle := (ownership.entry entry published).1 active
    have running := SessionMachine.passed_of_idle ownership idle SessionClosePC.collected
    exact ⟨children.sound, fun _ => children.isOpen running,
      fun _ => children.kept running, fun _ _ goesOn => (by cases goesOn),
      fun passed => by cases passed⟩
  | close owner move => exact children.close ownership owner move
  | _ => exact children.congr rfl rfl rfl rfl

end

end Children

/-- The IDs in the registry have been given to executions, so the next one is new. -/
def Enumerated (m : SessionMachine) : Prop :=
  ∀ id ∈ m.registry.entries, id < m.executions.length

theorem enumerated_init (id ws hooks : Nat) (materialize : GoError → RuntimeFailure) :
    Enumerated (.init id ws hooks materialize) :=
  nofun

theorem Enumerated.step {m next : SessionMachine} {action : SessionAction}
    (enumerated : Enumerated m) (taken : m.step action = some next) :
    Enumerated next := by
  intro id present
  cases SessionEffect.of_step taken with
  | addExecution _ added =>
    dsimp only at present
    rw [ExecutionRegistry.entries_add added] at present
    rw [length_append]
    rcases mem_append.mp present with old | new
    · exact Nat.lt_add_right 1 (enumerated id old)
    · cases mem_singleton.mp new
      exact Nat.lt_add_one _
  | execution | beginExecutionClose =>
    rw [length_set]
    exact enumerated id present
  | removeExecution =>
    rw [length_set]
    dsimp only at present
    rw [ExecutionRegistry.entries_finishClose] at present
    exact enumerated id (mem_of_mem_erase present)
  | close _ move =>
    cases move with
    | begin _ begun =>
      dsimp only at present
      rw [ExecutionRegistry.length_beginCloseAll begun]
      rw [ExecutionRegistry.entries_beginSessionClose] at present
      exact enumerated id present
    | @closePlan _ _ plan =>
      cases plan with
      | none | some => exact enumerated id present
    | @closeDebugPlan _ _ debugPlan =>
      cases debugPlan with
      | none | some => exact enumerated id present
    | _ => exact enumerated id present
  | _ => exact enumerated id present

end Ferretd.Exec

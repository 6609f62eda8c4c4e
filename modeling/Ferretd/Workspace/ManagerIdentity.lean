import Ferretd.Workspace.ManagerMoves

/-!
# The identity of open workspaces

`byRoot` is a bijection between the roots it maps and the active entries, an open
operation that is registered under a root is the one that may publish for it, and
`Clear` invalidates every operation that has not published.
-/

namespace Ferretd.Workspaces

open Library Function

/-! ## The registry -/

structure RegistrySound (m : Manager) : Prop where
  rooted :
    ∀ root id, m.byRoot root = some id →
      ∃ found, m.standing id = some found ∧ found.active = true ∧ found.root = root
  active :
    ∀ id found, m.standing id = some found → found.active = true →
      found.done = true ∧ m.byRoot found.root = some id
  opening :
    ∀ root id, m.opening root = some id →
      ∃ found, m.standing id = some found ∧ found.done = false ∧ found.root = root
  current :
    ∀ id found, m.standing id = some found → found.done = false →
      found.generation = m.generation →
        m.opening found.root = some id ∧ m.byRoot found.root = none
  past : ∀ id found, m.standing id = some found → found.generation ≤ m.generation

theorem registrySound_new (hooks : Nat) : RegistrySound (.new hooks) := by
  have empty : ∀ id, (Manager.new hooks).standing id = none := by
    intro id
    simp [Manager.standing, Manager.new]
  refine ⟨(by rintro _ _ ⟨⟩), ?_, (by rintro _ _ ⟨⟩), ?_, ?_⟩ <;>
    · intro id found present
      rw [empty] at present
      cases present

namespace RegistrySound

section

variable {next m : Manager} {action : Action} (sound : RegistrySound m)
  (move : RegistryMove m next action)
include sound move

theorem step :
    RegistrySound next := by
  obtain ⟨rooted, active, opening, current, past⟩ := sound
  cases move with
  | same standing byRoot opened generation =>
    constructor <;> simp only [standing, byRoot, opened, generation] <;> assumption
  | register _ _ _ standing byRoot opened generation
  | publish _ _ _ standing byRoot opened generation
  | fail _ _ _ _ standing byRoot opened generation
  | close _ _ _ standing byRoot opened generation =>
    constructor <;>
      simp only [standing, byRoot, opened, generation, update_apply] <;> grind
  | clear _ standing byRoot opened generation =>
    constructor <;> simp only [standing, byRoot, opened, generation, reduceCtorEq,
      false_implies, implies_true, Option.map_eq_some_iff, forall_exists_index, and_imp]
    · intro id found before present same active
      cases same
      cases active
    · intro id found before present same undone valid
      cases same
      have bound := past id before present
      dsimp only at valid
      omega
    · intro id found before present same
      cases same
      have bound := past id before present
      exact Nat.le_succ_of_le bound

theorem byRoot_kept
    (stays : action.ends = false) {root id : Nat} (registered : m.byRoot root = some id) :
    next.byRoot root = some id := by
  cases move with
  | same _ byRoot | register _ _ _ _ byRoot | fail _ _ _ _ _ byRoot =>
    rw [byRoot]
    exact registered
  | @publish before opened present undone valid _ byRoot =>
    have free := (sound.current opened before present undone valid).2
    have different : root ≠ before.root := by
      intro same
      rw [same, free] at registered
      cases registered
    rw [byRoot, update_of_ne different]
    exact registered
  | close ends | clear ends =>
    rw [stays] at ends
    cases ends

end

end RegistrySound

variable {before : Standing} {pc' : OpenPC} {after : OpenOperation} {m next later : Manager}
  {action : Action} {id hooks : Nat}

theorem RegistryMove.kept (move : RegistryMove m next action)
    (present : m.standing id = some before) :
    ∃ after, next.standing id = some after ∧ after.root = before.root ∧
      after.generation = before.generation ∧
      (before.done = true →
        after.done = true ∧ after.err = before.err ∧
          (before.active = false → after.active = false)) ∧
      (before.generation ≠ m.generation → before.active = false →
        after.active = false) := by
  cases move with
  | same standing =>
    rw [standing]
    grind
  | register _ _ _ standing | publish _ _ _ standing
  | fail _ _ _ _ standing | close _ _ _ standing =>
    simp only [standing, update_apply]
    grind
  | clear ends standing => simp [standing, present]

/-! ## The calls -/

structure CallSound (m : Manager) (call : OpenCall) : Prop where
  refers :
    ∀ id, call.pc.refers = some id →
      ∃ found, m.standing id = some found ∧ found.root = call.root
  failure : ∀ err, call.pc.failure = some err → err ≠ []

structure IdentitySound (m : Manager) : Prop where
  entries : ManagerSound m
  registry : RegistrySound m
  calls : ∀ (index : Nat) (call : OpenCall),
    m.calls[index]? = some call → CallSound m call

namespace CallSound

variable {call : OpenCall}

theorem kept (sound : CallSound m call) (move : RegistryMove m next action) :
    CallSound next call := by
  refine ⟨?_, sound.failure⟩
  intro id refers
  obtain ⟨found, present, rooted⟩ := sound.refers id refers
  obtain ⟨after, located, sameRoot, _⟩ := move.kept present
  exact ⟨after, located, sameRoot.trans rooted⟩

theorem moved (sound : CallSound m call) (registry : RegistrySound m)
    (changed : RegistryMove m next action) (move : CallMove m next call.root call.pc pc') :
    CallSound next { call with pc := pc' } := by
  cases move with
  | found _ _ after | joined _ _ _ _ _ after | publish _ _ _ after =>
    subst after
    exact ⟨nofun, nofun⟩
  | @waits id _ opening standing after =>
    subst after
    refine ⟨?_, nofun⟩
    intro other refers
    cases refers
    obtain ⟨found, present, _, rooted⟩ := registry.opening call.root id opening
    exact ⟨found, by rw [standing]; exact present, rooted⟩
  | register _ present after =>
    subst after
    refine ⟨?_, nofun⟩
    intro other refers
    cases refers
    exact present
  | goesOn refers failure =>
    constructor
    · intro id goal
      exact (sound.kept changed).refers id (refers id goal)
    intro err failed
    rcases failure err failed with nonempty | before
    · exact nonempty
    · exact sound.failure err before

end CallSound

theorem identitySound_new (hooks : Nat) : IdentitySound (.new hooks) := by
  refine ⟨managerSound_new hooks, registrySound_new hooks, ?_⟩
  intro index call caller
  simp [Manager.new] at caller

theorem IdentitySound.step (sound : IdentitySound m)
    (taken : m.step action = some next) : IdentitySound next := by
  have changed := (ManagerEffect.of_step taken).registry_move sound.entries
  refine ⟨sound.entries.step taken, sound.registry.step changed, ?_⟩
  intro other current located
  cases (ManagerEffect.of_step taken).calls_move with
  | same calls =>
    rw [calls] at located
    exact (sound.calls other current located).kept changed
  | openRoot calls =>
    rw [calls] at located
    rcases getElem?_concat_cases located with ⟨_, rfl⟩ | before
    · exact ⟨nofun, nofun⟩
    · exact (sound.calls other current before).kept changed
  | @call index call _ _ caller calls move =>
    rw [calls] at located
    rcases getElem?_set_cases located with ⟨_, rfl⟩ | ⟨_, before⟩
    · exact (sound.calls index call caller).moved sound.registry changed move
    · exact (sound.calls other current before).kept changed

theorem identitySound_run (reached : Reaches Manager.step (.new hooks) m) : IdentitySound m := by
  apply reached.invariant
  · exact identitySound_new hooks
  · intro state action next sound _ taken
    exact sound.step taken

/-! ## Identity -/

/-- `byRoot` maps exactly the roots of the active entries, each to its entry. -/
structure Manager.Identified (m : Manager) : Prop where
  rooted :
    ∀ root id, m.byRoot root = some id →
      ∃ op, m.operations[id]? = some op ∧ op.active = true ∧
        op.workspace.root = root
  reachable :
    ∀ (id : Nat) (op : OpenOperation), m.operations[id]? = some op →
      op.active = true → m.byRoot op.workspace.root = some id
  unique :
    ∀ (first second : Nat) (left right : OpenOperation),
      m.operations[first]? = some left → m.operations[second]? = some right →
        left.active = true → right.active = true →
          left.workspace.root = right.workspace.root → first = second

theorem RegistrySound.identified (sound : RegistrySound m) : m.Identified := by
  have reachable : ∀ (id : Nat) (op : OpenOperation),
      m.operations[id]? = some op → op.active = true →
        m.byRoot op.workspace.root = some id := by
    intro id op present active
    exact (sound.active id op.standing (Manager.standing_of_present present) active).2
  refine ⟨?_, reachable, ?_⟩
  · intro root id registered
    obtain ⟨found, located, active, rooted⟩ := sound.rooted root id registered
    obtain ⟨op, present, rfl⟩ := Option.map_eq_some_iff.mp located
    exact ⟨op, present, active, rooted⟩
  intro first second left right isLeft isRight leftActive rightActive same
  have leftRoot := reachable first left isLeft leftActive
  have rightRoot := reachable second right isRight rightActive
  rw [same, rightRoot] at leftRoot
  cases leftRoot
  rfl

/-- The call at this position is still to return, or still to begin, and does not wait
for an operation that is over. -/
def Manager.awaits (m : Manager) (index : Nat) : Prop :=
  ∀ call, m.calls[index]? = some call →
    call.pc.workspace = none ∧
      ∀ id op, call.pc = .waitForOpen id → m.operations[id]? = some op →
        op.done = false

/-- Until the next `Close` or `Clear` the calls of `Open` for one root that return a
workspace return the same one. -/
def Manager.OpensAgree (m : Manager) : Prop :=
  ∀ later, Run Manager.step (fun _ action => action.ends = false) m later →
    ∀ (first second : Nat) (left right : OpenCall) (leftID rightID : Nat),
      m.awaits first → m.awaits second →
        later.calls[first]? = some left → later.calls[second]? = some right →
          left.root = right.root → left.pc.workspace = some leftID →
            right.pc.workspace = some rightID → leftID = rightID

/-- What holds of an awaited call as long as nothing is closed. -/
structure Agrees (m : Manager) (call : OpenCall) : Prop where
  returned : ∀ id, call.pc.workspace = some id → m.byRoot call.root = some id
  waits :
    ∀ id, call.pc = .waitForOpen id →
      ∃ found, m.standing id = some found ∧
        (found.done = false ∨ found.err ≠ [] ∨ m.byRoot call.root = some id)

namespace Agrees

variable {m next : Manager} {action : Action} {call : OpenCall}

section

variable (agrees : Agrees m call)
  (sound : IdentitySound m)
  (callSound : CallSound m call)
include agrees sound callSound

theorem kept (changed : RegistryMove m next action)
    (stays : action.ends = false) : Agrees next call := by
  constructor
  · intro id returned
    exact sound.registry.byRoot_kept changed stays (agrees.returned id returned)
  intro id waiting
  obtain ⟨found, present, status⟩ := agrees.waits id waiting
  obtain ⟨rootOf, rooted, sameRoot⟩ := callSound.refers id (by rw [waiting]; rfl)
  rw [present] at rooted
  cases rooted
  by_cases registered : m.byRoot call.root = some id
  · obtain ⟨after, located, _⟩ := changed.kept present
    exact ⟨after, located, .inr (.inr (sound.registry.byRoot_kept changed stays registered))⟩
  cases changed with
  | same standing byRoot =>
    refine ⟨found, by rw [standing]; exact present, ?_⟩
    rw [byRoot]
    exact status
  | @register _ fresh _ _ absent standing byRoot =>
    have different : id ≠ fresh := by
      intro same
      rw [same, absent] at present
      cases present
    refine ⟨found, by rw [standing, update_of_ne different]; exact present, ?_⟩
    rw [byRoot]
    exact status
  | @publish _ other located _ _ standing byRoot =>
    by_cases same : id = other
    · subst same
      rw [present] at located
      cases located
      refine ⟨_, by rw [standing, update_self], .inr (.inr ?_)⟩
      rw [byRoot, ← sameRoot, update_self]
    · refine ⟨found, by rw [standing, update_of_ne same]; exact present, ?_⟩
      rcases status with pending | failed | rooted
      · exact .inl pending
      · exact .inr (.inl failed)
      · exact absurd rooted registered
  | @fail caller err _ other index isCaller at_ _ _ standing byRoot =>
    by_cases same : id = other
    · subst same
      have failed := (sound.calls index caller isCaller).failure err (by rw [at_]; rfl)
      exact ⟨_, by rw [standing, update_self], .inr (.inl failed)⟩
    · refine ⟨found, by rw [standing, update_of_ne same]; exact present, ?_⟩
      rw [byRoot]
      exact status
  | close ends | clear ends =>
    rw [stays] at ends
    cases ends

theorem moved (move : CallMove m next call.root call.pc pc') :
    Agrees next { call with pc := pc' } := by
  cases move with
  | found registered byRoot after =>
    subst after
    refine ⟨?_, nofun⟩
    intro other returned
    cases returned
    rw [byRoot]
    exact registered
  | @waits id _ opening standing after =>
    subst after
    refine ⟨nofun, ?_⟩
    intro other waiting
    cases waiting
    obtain ⟨found, present, undone, _⟩ := sound.registry.opening call.root id opening
    exact ⟨found, by rw [standing]; exact present, .inl undone⟩
  | @joined _ id at_ present done succeeded byRoot after =>
    subst after
    refine ⟨?_, nofun⟩
    intro other returned
    cases returned
    obtain ⟨awaited, located, status⟩ := agrees.waits id at_
    rw [present] at located
    cases located
    rw [byRoot]
    rcases status with undone | failed | rooted
    · rw [done] at undone
      cases undone
    · exact absurd succeeded failed
    · exact rooted
  | register _ _ after =>
    subst after
    exact ⟨nofun, nofun⟩
  | @publish _ id owns present byRoot after =>
    subst after
    refine ⟨?_, nofun⟩
    intro other returned
    cases returned
    have refers : call.pc.refers = some id := by
      cases atCall : call.pc <;> rw [atCall] at owns <;> first | exact owns | cases owns
    obtain ⟨owned, located, sameRoot⟩ := callSound.refers id refers
    rw [present] at located
    cases located
    rw [byRoot, ← sameRoot, update_self]
  | goesOn _ _ unreturned stays =>
    constructor
    · intro id returned
      rw [unreturned] at returned
      cases returned
    · intro id waiting
      exact absurd waiting (stays id)

end

end Agrees

theorem agrees_run (sound : IdentitySound m)
    (run : Run Manager.step (fun _ action => action.ends = false) m later) :
    IdentitySound later ∧
      ∀ (index : Nat) (call : OpenCall), m.awaits index →
        later.calls[index]? = some call → Agrees later call := by
  apply run.invariant
  · refine ⟨sound, ?_⟩
    intro index call awaited caller
    obtain ⟨unreturned, waiting⟩ := awaited call caller
    constructor
    · intro id returned
      rw [unreturned] at returned
      cases returned
    intro id at_
    obtain ⟨found, located, _⟩ :=
      (sound.calls index call caller).refers id (by rw [at_]; rfl)
    obtain ⟨op, present, rfl⟩ := Option.map_eq_some_iff.mp located
    exact ⟨_, located, .inl (waiting id op at_ present)⟩
  · intro state action next holds stays taken
    obtain ⟨stateSound, agree⟩ := holds
    have changed := (ManagerEffect.of_step taken).registry_move stateSound.entries
    refine ⟨stateSound.step taken, ?_⟩
    intro index call awaited located
    have keeps : state.calls[index]? = some call → Agrees next call := by
      intro before
      exact (agree index call awaited before).kept stateSound
        (stateSound.calls index call before) changed stays
    cases (ManagerEffect.of_step taken).calls_move with
    | same calls =>
      rw [calls] at located
      exact keeps located
    | openRoot calls =>
      rw [calls] at located
      rcases getElem?_concat_cases located with ⟨_, rfl⟩ | before
      · exact ⟨nofun, nofun⟩
      · exact keeps before
    | @call _ moving _ _ caller calls move =>
      rw [calls] at located
      rcases getElem?_set_cases located with ⟨rfl, rfl⟩ | ⟨_, before⟩
      · exact (agree index moving awaited caller).moved stateSound
          (stateSound.calls index moving caller) move
      · exact keeps before

theorem IdentitySound.opensAgree (sound : IdentitySound m) : m.OpensAgree := by
  intro later run first second left right leftID rightID firstAwaits secondAwaits isLeft
    isRight sameRoot leftReturned rightReturned
  obtain ⟨_, agree⟩ := agrees_run sound run
  have leftRoot := (agree first left firstAwaits isLeft).returned leftID leftReturned
  have rightRoot := (agree second right secondAwaits isRight).returned rightID rightReturned
  rw [sameRoot, rightRoot] at leftRoot
  cases leftRoot
  rfl

/-! ## Clear -/

/-- An operation that was begun before a `Clear` is not active after it, and publishes
no entry. -/
def Manager.ClearInvalidates (m : Manager) : Prop :=
  ∀ cleared later, m.step .clear = some cleared → Reaches Manager.step cleared later →
    ∀ (id : Nat) (op : OpenOperation), m.operations[id]? = some op →
      ∃ after, later.operations[id]? = some after ∧ after.active = false ∧
        (op.entry = none → after.entry = none)

variable {op : OpenOperation}

/-- An entry is published by a call that commits the operation in its own generation. -/
theorem ManagerEffect.unpublished (effect : ManagerEffect m action next)
    (present : m.operations[id]? = some op)
    (located : next.operations[id]? = some after) (unpublished : op.entry = none)
    (uncommitted : ∀ (index watcher : Nat) (reply : Reply) (call : OpenCall),
      action = .call index reply → m.calls[index]? = some call →
        call.pc = .commit id watcher → op.generation ≠ m.generation) :
    after.entry = none := by
  have same : next.operations = m.operations → after.entry = none := by
    intro operations
    rw [operations, present] at located
    cases located
    exact unpublished
  have other : ∀ {changed : Nat} {before moved : OpenOperation},
      m.operations[changed]? = some before →
        next.operations = m.operations.set changed moved →
          (changed = id → moved.entry = none) → after.entry = none := by
    intro changed before moved isBefore operations entry
    rw [operations] at located
    rcases getElem?_set_cases located with ⟨rfl, rfl⟩ | ⟨_, old⟩
    · exact entry rfl
    · rw [present] at old
      cases old
      exact unpublished
  cases effect with
  | register =>
    rcases getElem?_concat_cases located with ⟨_, rfl⟩ | old
    · rfl
    · rw [present] at old
      cases old
      exact unpublished
  | @publish index call _ _ watcher _ reply caller at_ isFound _ valid =>
    refine other isFound rfl ?_
    intro equal
    subst equal
    rw [isFound] at present
    cases present
    exact absurd valid (uncommitted index watcher reply call rfl caller at_)
  | setFailed _ _ isFound | finishOpen _ _ isFound =>
    refine other isFound rfl ?_
    intro equal
    subst equal
    rw [isFound] at present
    cases present
    exact unpublished
  | beginClose isFound registered =>
    refine other isFound rfl ?_
    intro equal
    subst equal
    rw [isFound] at present
    cases present
    rw [(OpenOperation.entry_of_registered registered).1] at unpublished
    cases unpublished
  | clear =>
    dsimp only at located
    rw [List.getElem?_map, present] at located
    cases located
    rcases (ManagerSound.clearOne_spec op).2 with entry | ⟨entry, published, _⟩
    · rw [entry]
      exact unpublished
    · rw [published] at unpublished
      cases unpublished
  | worker isFound published =>
    refine other isFound rfl ?_
    intro equal
    subst equal
    rw [isFound] at present
    cases present
    rw [published] at unpublished
    cases unpublished
  | _ => exact same rfl

theorem RegistryMove.generation_le (move : RegistryMove m next action) :
    m.generation ≤ next.generation := by
  cases move with
  | same _ _ _ generation | register _ _ _ _ _ _ generation
  | publish _ _ _ _ _ _ generation | fail _ _ _ _ _ _ _ generation
  | close _ _ _ _ _ _ generation => exact Nat.le_of_eq generation.symm
  | clear _ _ _ _ generation => exact generation.symm ▸ Nat.le_succ _

/-- The operation is over, or of an earlier generation, and will not become active. -/
def Manager.Stale (m : Manager) (unpublished : Prop) (id : Nat) : Prop :=
  ∃ op, m.operations[id]? = some op ∧ op.active = false ∧
    (op.generation < m.generation ∨ op.done = true) ∧
    (unpublished → op.entry = none)

section

variable {cleared : Manager} (sound : IdentitySound m)
include sound

theorem stale_step {unpublished : Prop}
    (taken : m.step action = some next) (stale : m.Stale unpublished id) :
    next.Stale unpublished id := by
  obtain ⟨op, present, inactive, ceased, empty⟩ := stale
  have effect := ManagerEffect.of_step taken
  have changed := effect.registry_move sound.entries
  obtain ⟨found, standing, _, generation, done, old⟩ :=
    changed.kept (Manager.standing_of_present present)
  obtain ⟨after, located, rfl⟩ := Option.map_eq_some_iff.mp standing
  have outdated : op.generation ≠ m.generation ∨ op.done = true :=
    ceased.imp_left Nat.ne_of_lt
  refine ⟨after, located, ?_, ?_, ?_⟩
  · rcases outdated with earlier | isDone
    · exact old earlier inactive
    · exact (done isDone).2.2 inactive
  · rcases ceased with earlier | isDone
    · left
      calc
        after.generation = op.generation := generation
        _ < m.generation := earlier
        _ ≤ next.generation := changed.generation_le
    · exact .inr (done isDone).1
  · intro holds
    refine effect.unpublished present located (empty holds) ?_
    intro index watcher reply call _ caller at_
    have owns : call.pc.operation = some id := by rw [at_]; rfl
    obtain ⟨undone, _⟩ := sound.entries.undone caller owns present
    rcases outdated with earlier | isDone
    · exact earlier
    · rw [undone] at isDone
      cases isDone

theorem stale_of_clear (taken : m.step .clear = some cleared)
    (present : m.operations[id]? = some op) :
    cleared.Stale (op.entry = none) id := by
  have bound := sound.registry.past id _ (Manager.standing_of_present present)
  simp only [Manager.step, Manager.clear] at taken
  split at taken
  · cases taken
    have standing := Manager.clearOne_standing op
    refine ⟨Manager.clearOne op, by simp [present],
      congrArg Standing.active standing, .inl ?_, ?_⟩
    · have generation := congrArg Standing.generation standing
      have kept : (Manager.clearOne op).generation = op.generation := generation
      rw [kept]
      exact Nat.lt_succ_of_le bound
    · intro unpublished
      rcases (ManagerSound.clearOne_spec op).2 with entry | ⟨entry, published, _⟩
      · rw [entry]
        exact unpublished
      · rw [published] at unpublished
        cases unpublished
  · cases taken

theorem IdentitySound.clearInvalidates : m.ClearInvalidates := by
  intro cleared later taken run id op present
  have kept : IdentitySound later ∧ later.Stale (op.entry = none) id := by
    apply run.invariant
    · exact ⟨sound.step taken, stale_of_clear sound taken present⟩
    · intro state action next holds _ moved
      exact ⟨holds.1.step moved, stale_step holds.1 moved holds.2⟩
  obtain ⟨_, after, located, inactive, _, empty⟩ := kept
  exact ⟨after, located, inactive, empty⟩

end

/-- At most one workspace is active for a root, calls of `Open` agree on it, and an
operation does not outlive a `Clear`. -/
theorem workspace_identity (reached : Reaches Manager.step (.new hooks) m) :
    m.Identified ∧ m.OpensAgree ∧ m.ClearInvalidates := by
  have sound := identitySound_run reached
  exact ⟨sound.registry.identified, sound.opensAgree, sound.clearInvalidates⟩

/-- Two calls for one root; the second finds the operation of the first. -/
def twoOpens : List Action :=
  let go (index : Nat) := Action.call index Reply.quiet
  [.openRoot 7, .openRoot 7, go 0, go 0, go 1, go 0, go 0, go 0, go 0, go 0, go 1]

theorem workspace_identity_two_opens :
    ∃ m, Reaches Manager.step (.new 0) m ∧
      (m.calls.map (·.pc.workspace) = [some 0, some 0] ∧ m.byRoot 7 = some 0) ∧
      m.Identified ∧ m.OpensAgree ∧ m.ClearInvalidates := by
  have evaluated : (execute Manager.step (.new 0) twoOpens).map (fun m =>
      decide (m.calls.map (·.pc.workspace) = [some 0, some 0] ∧
        m.byRoot 7 = some 0)) = some true := by
    decide
  obtain ⟨m, reached, facts⟩ := exists_reaches_of_test evaluated
  exact ⟨m, reached, of_decide_eq_true facts, workspace_identity reached⟩

/-- The first of two calls publishes a workspace, which is closed before the second, waiting
for that operation, runs again. -/
def closedBeforeWake : List Action :=
  let go (index : Nat) := Action.call index Reply.quiet
  [.openRoot 7, .openRoot 7, go 0, go 0, go 1, go 0, go 0, go 0, go 0, go 0, .close 0]

/-- A third call opens the root again, and only then the waiting one returns. -/
def reopenedThenWoken : List Action :=
  let go (index : Nat) := Action.call index Reply.quiet
  [.openRoot 7, go 2, go 2, go 2, go 2, go 2, go 2, go 2, go 1]

/-- Without a `Close` or `Clear` in the run from `m` to `later`, two calls for one root
return different workspaces in it: the waiter takes the entry of the operation it waits for,
which has been closed meanwhile. -/
theorem opens_disagree :
    ∃ m later, Reaches Manager.step (.new 0) m ∧
      Run Manager.step (fun _ action => action.ends = false) m later ∧
      m.calls.map (·.pc.workspace) = [some 0, none] ∧
      later.calls.map (fun call => (call.root, call.pc.workspace)) =
        [(7, some 0), (7, some 0), (7, some 1)] := by
  have evaluated : ((execute Manager.step (.new 0) closedBeforeWake).bind fun m =>
      (execute (guarded Manager.step fun _ action => action.ends = false) m
        reopenedThenWoken).map fun later =>
          decide (m.calls.map (·.pc.workspace) = [some 0, none] ∧
            later.calls.map (fun call => (call.root, call.pc.workspace)) =
              [(7, some 0), (7, some 0), (7, some 1)])) = some true := by
    decide
  obtain ⟨m, later, reached, run, facts⟩ := exists_run_of_test evaluated
  exact ⟨m, later, reached, run, of_decide_eq_true facts⟩

end Ferretd.Workspaces

import Ferretd.Composition.Managers
import Ferretd.Exec.ManagerTeardown

/-!
# Teardown of a workspace across the managers

From the moment the close hook is called, the group it waits for is the only one with
sessions of the workspace.
-/

namespace Ferretd.Composition

open Library Workspaces.ManagerEffect Managers

structure ManagersSound (managers : Managers) : Prop where
  workspaces : Workspaces.ManagerSound managers.workspaces
  hooks : managers.workspaces.hooks = 1
  executions : Exec.ManagerSound managers.executions
  called :
    ∀ (id : Nat) (op : Workspaces.OpenOperation) (entry : Workspaces.Entry),
      managers.workspaces.operations[id]? = some op →
        op.entry = some entry → entry.passed Workspaces.ClosePC.called = true →
          ∃ group, managers.hooked id = some group ∧ Exec.Sealed id group managers.executions
  answered :
    ∀ (id : Nat) (op : Workspaces.OpenOperation) (entry : Workspaces.Entry),
      managers.workspaces.operations[id]? = some op →
        op.entry = some entry → entry.passed Workspaces.ClosePC.answered = true →
          ∃ group found, managers.hooked id = some group ∧
            managers.executions.pool[group]? = some found ∧
            found.gate.close.state = .finished

theorem managersSound_new (hooks : Nat) (materialize : Nat → GoError → RuntimeFailure) :
    ManagersSound (.new hooks materialize) := by
  refine ⟨Workspaces.managerSound_new 1, rfl, Exec.managerSound_new hooks materialize, ?_, ?_⟩
  · intro id op entry present
    simp [new, Workspaces.Manager.new] at present
  · intro id op entry present
    simp [new, Workspaces.Manager.new] at present

variable {action : Exec.ManagerAction} {materialize : Nat → GoError → RuntimeFailure}
  {managers : Managers} {id hooks : Nat}

theorem Managers.active_of_resolves
    (resolves : managers.executions.Resolves (managers.resolve action) id) :
    ∃ op, managers.workspaces.operations[id]? = some op ∧
      op.active = true := by
  obtain ⟨group, index, answer, found, same, present, rfl, creator, quiet⟩ := resolves
  have asked : ∃ asked : Exec.Answer,
      answer.err = managers.workspaces.get asked.ctxErr found.workspace := by
    cases action with
    | creation _ _ answer' =>
      simp only [resolve] at same
      split at same
      next absent =>
        cases same
        rw [present] at absent
        cases absent
      rename_i known located
      split at same
      · cases same
        rw [present] at located
        cases located
        exact ⟨answer', rfl⟩
      rename_i otherwise
      cases same
      rw [present] at located
      cases located
      exact absurd creator otherwise
    | _ =>
      cases same
  obtain ⟨asked, known⟩ := asked
  rw [quiet] at known
  unfold Workspaces.Manager.get at known
  split at known
  next cancelled => exact absurd known.symm cancelled
  split at known
  next op located =>
    split at known
    next active => exact ⟨op, located, active⟩
    · cases known
  · cases known

variable {op : Workspaces.OpenOperation} {entry : Workspaces.Entry}

theorem ManagersSound.unresolved (sound : ManagersSound managers)
    (present : managers.workspaces.operations[id]? = some op) (published : op.entry = some entry)
    (called : entry.passed Workspaces.ClosePC.called = true) (action : Exec.ManagerAction) :
    ¬managers.executions.Resolves (managers.resolve action) id := by
  intro resolves
  obtain ⟨same, located, active⟩ := active_of_resolves resolves
  rw [present] at located
  cases located
  have entrySound := (sound.workspaces.entries id op entry present published).2
  have closing : entry.state = .closing := by
    cases working : entry.worker with
    | none => simpa [Workspaces.Entry.passed, working] using called
    | some =>
      apply entrySound.closing_of_busy
      intro idle
      have none := entrySound.idle idle
      simp [working] at none
  simp only [Workspaces.OpenOperation.active] at active
  split at active
  next registered isRegistered =>
    have known := (Workspaces.OpenOperation.entry_of_registered isRegistered).1
    rw [published] at known
    cases known
    simp [closing] at active
  · cases active

theorem Managers.closePC_eq (present : managers.workspaces.operations[id]? = some op)
    (published : op.entry = some entry) : managers.closePC id = entry.worker := by
  simp [closePC, present, published]

namespace ManagersSound

variable {later : Workspaces.OpenOperation} {moved : Workspaces.Entry} {managers next : Managers}

theorem execution (sound : ManagersSound managers) {executions : Exec.Manager}
    (taken : managers.executions.step (managers.resolve action) = some executions) :
    ManagersSound { managers with executions := executions } := by
  have effect := Exec.ManagerEffect.of_step taken
  refine ⟨sound.workspaces, sound.hooks, sound.executions.step taken, ?_, ?_⟩
  · intro id op entry present published called
    obtain ⟨group, hooked, sealed⟩ := sound.called id op entry present published called
    exact ⟨group, hooked, sealed.step effect (sound.unresolved present published called action)⟩
  intro id op entry present published answered
  obtain ⟨group, found, hooked, located, finished⟩ :=
    sound.answered id op entry present published answered
  obtain ⟨later, reached, moves⟩ := effect.pool_moves.kept group found located
  refine ⟨group, later, hooked, reached, ?_⟩
  rw [moves.close.finished finished]
  exact finished

theorem origin (sound : ManagersSound managers) {action : Workspaces.Action}
    {workspaces : Workspaces.Manager} (taken : managers.workspaces.step action = some workspaces)
    (reached : workspaces.operations[id]? = some later) (isMoved : later.entry = some moved) :
    moved = .new ∨ ∃ op entry,
      managers.workspaces.operations[id]? = some op ∧
        op.entry = some entry ∧ Workspaces.EntryMoves action id entry moved := by
  have hooks : managers.workspaces.hooks ≠ 0 := by simp [sound.hooks]
  have moves := (of_step taken).entries_move sound.workspaces hooks
  rcases moves.fresh id later moved reached isMoved with
    fresh | ⟨op, entry, present, published⟩
  · exact Or.inl fresh
  obtain ⟨same, known, samePresent, isKnown, move⟩ :=
    moves.kept id op entry present published
  rw [reached] at samePresent
  cases samePresent
  rw [isMoved] at isKnown
  cases isKnown
  exact Or.inr ⟨op, entry, present, published, move⟩

theorem step {action : Action} (sound : ManagersSound managers)
    (taken : managers.step action = some next) : ManagersSound next := by
  cases Effect.of_step taken with
  | execution stepped => exact sound.execution stepped
  | workspace stepped calls answers =>
    refine ⟨sound.workspaces.step stepped, ?_, sound.executions, ?_, ?_⟩
    · exact (Workspaces.Manager.hooks_step (of_step stepped)).trans sound.hooks
    · intro id later moved reached isMoved called
      rcases sound.origin stepped reached isMoved with
        rfl | ⟨op, entry, present, published, move⟩
      · cases called
      rcases move.called called with before | ⟨reply, left, result, same, working⟩
      · exact sound.called id op entry present published before
      · refine absurd ?_ (calls id reply left result same)
        rw [closePC_eq present published, working]
    · intro id later moved reached isMoved answered
      rcases sound.origin stepped reached isMoved with
        rfl | ⟨op, entry, present, published, move⟩
      · cases answered
      rcases move.answered answered with before | ⟨reply, left, result, same, working⟩
      · exact sound.answered id op entry present published before
      · apply answers id reply left result same
        rw [closePC_eq present published, working]
  | @hook _ _ executions _ workspaces id calls begun stepped =>
    have begins : managers.executions.step (.closeWorkspace id) = some executions := begun
    have effect := Exec.ManagerEffect.of_step begins
    refine ⟨sound.workspaces.step stepped, ?_, sound.executions.step begins, ?_, ?_⟩
    · exact (Workspaces.Manager.hooks_step (of_step stepped)).trans sound.hooks
    · intro other later moved reached isMoved called
      by_cases same : other = id
      · subst same
        exact ⟨(managers.executions.groupOf other).2, by simp,
          Exec.Sealed.begin sound.executions begun⟩
      rcases sound.origin stepped reached isMoved with
        rfl | ⟨op, entry, present, published, move⟩
      · cases called
      rcases move.called called with before | ⟨_, _, _, acts, _⟩
      · obtain ⟨group, hooked, sealed⟩ :=
          sound.called other op entry present published before
        refine ⟨group, ?_, sealed.step effect ?_⟩
        · dsimp only
          rw [Function.update_of_ne same]
          exact hooked
        · rintro ⟨_, _, _, _, acts, _⟩
          cases acts
      · cases acts
        exact absurd rfl same
    · intro other later moved reached isMoved answered
      rcases sound.origin stepped reached isMoved with
        rfl | ⟨op, entry, present, published, move⟩
      · cases answered
      rcases move.answered answered with before | ⟨_, _, _, acts, waits⟩
      · have different : other ≠ id := by
          -- the goroutine that calls the hook has no answer yet
          intro same
          subst same
          rw [closePC_eq present published] at calls
          simp [Workspaces.Entry.passed, calls, Workspaces.ClosePC.answered] at before
        obtain ⟨group, found, hooked, located, finished⟩ :=
          sound.answered other op entry present published before
        obtain ⟨last, lastPresent, moves⟩ := effect.pool_moves.kept group found located
        refine ⟨group, last, ?_, lastPresent, ?_⟩
        · dsimp only
          rw [Function.update_of_ne different]
          exact hooked
        · rw [moves.close.finished finished]
          exact finished
      · cases acts
        rw [closePC_eq present published, waits] at calls
        cases calls

end ManagersSound

theorem managersSound_run (run : Reaches Managers.step (.new hooks materialize) managers) :
    ManagersSound managers :=
  run.invariant (managersSound_new hooks materialize) fun _ _ _ sound _ taken => sound.step taken

/-! ## After the close operation of the workspace -/

/-- Seen from `managers`, where the close operation of the workspace has published
its result, what holds at `later`. -/
structure WorkspaceTornDown (id : Nat) (managers later : Managers) : Prop where
  settled :
    ∀ (session : Nat) (member : Exec.Member) (entry : Exec.SessionEntry),
      later.executions.sessions[session]? = some member →
        member.machine.core.session.workspace = id →
        member.machine.entry = some entry → entry.listed = true →
          entry.state = .closing ∧ member.machine.gate.close.state = .finished ∧
            member.machine.worker = some .removeEntry
  unpublished :
    ∀ (session : Nat) (member : Exec.Member),
      later.executions.sessions[session]? = some member →
        member.machine.core.session.workspace = id → member.machine.entry ≠ none →
          ∃ before, managers.executions.sessions[session]? = some before ∧
            before.machine.entry ≠ none

/-- The close operation of the workspace has published its result. -/
def Managers.Closed (managers : Managers) (id : Nat) : Prop :=
  ∃ op entry, managers.workspaces.operations[id]? = some op ∧
    op.entry = some entry ∧ entry.close.state = .finished

namespace ManagersSound

variable {member : Exec.Member} {managers next : Managers} {id : Nat}

theorem closed_step {action : Action} (sound : ManagersSound managers)
    (closed : managers.Closed id) (taken : managers.step action = some next) :
    next.Closed id := by
  have hooks : managers.workspaces.hooks ≠ 0 := by simp [sound.hooks]
  obtain ⟨op, entry, present, published, finished⟩ := closed
  have stays : ∀ {own : Workspaces.Action} {workspaces : Workspaces.Manager},
      managers.workspaces.step own = some workspaces →
        ∃ later moved, workspaces.operations[id]? = some later ∧
          later.entry = some moved ∧ moved.close.state = .finished := by
    intro own workspaces stepped
    obtain ⟨later, moved, reached, isMoved, moves⟩ :=
      ((of_step stepped).entries_move sound.workspaces hooks).kept
        id op entry present published
    refine ⟨later, moved, reached, isMoved, ?_⟩
    rw [moves.close.finished finished]
    exact finished
  cases Effect.of_step taken with
  | execution => exact ⟨op, entry, present, published, finished⟩
  | workspace stepped | hook _ _ stepped => exact stays stepped

theorem sealed_of_closed (sound : ManagersSound managers) (closed : managers.Closed id) :
    ∃ group found, Exec.Sealed id group managers.executions ∧
      managers.executions.pool[group]? = some found ∧
      found.gate.close.state = .finished := by
  obtain ⟨op, entry, present, published, finished⟩ := closed
  have entrySound := (sound.workspaces.entries id op entry present published).2
  have closing := entrySound.closing_of_busy (by simp [finished])
  have passed : ∀ {test : Workspaces.ClosePC → Bool}, test .delete = true →
      entry.passed test = true := by
    intro test holds
    rcases entrySound.finished finished with last | ⟨none, _⟩
    · simp only [Workspaces.Entry.passed, last]
      exact holds
    · simp [Workspaces.Entry.passed, none, closing]
  obtain ⟨group, hooked, sealed⟩ :=
    sound.called id op entry present published (passed rfl)
  obtain ⟨same, found, sameHooked, located, groupFinished⟩ :=
    sound.answered id op entry present published (passed rfl)
  rw [hooked] at sameHooked
  cases sameHooked
  exact ⟨group, found, sealed, located, groupFinished⟩

theorem published_step {action : Action} (sound : ManagersSound managers)
    (closed : managers.Closed id) (taken : managers.step action = some next) {session : Nat}
    (located : next.executions.sessions[session]? = some member)
    (home : member.machine.core.session.workspace = id) (published : member.machine.entry ≠ none) :
    ∃ before, managers.executions.sessions[session]? = some before ∧
      before.machine.core.session.workspace = id ∧ before.machine.entry ≠ none := by
  have nextSound := sound.step taken
  obtain ⟨group, found, sealed, _⟩ := nextSound.sealed_of_closed (sound.closed_step closed taken)
  cases Effect.of_step taken with
  | execution stepped =>
    exact sealed.published sound.executions nextSound.executions
      (Exec.ManagerEffect.of_step stepped) located home published
  | workspace => exact ⟨member, located, home, published⟩
  | @hook _ _ executions _ _ other _ begun =>
    have begins : managers.executions.step (.closeWorkspace other) = some executions :=
      begun
    exact sealed.published sound.executions nextSound.executions
      (Exec.ManagerEffect.of_step begins) located home published

end ManagersSound

theorem workspace_tornDown {later : Managers}
    (reached : Reaches Managers.step (.new hooks materialize) managers)
    (closed : managers.Closed id) (run : Reaches Managers.step managers later) :
    WorkspaceTornDown id managers later := by
  have sound := managersSound_run reached
  have along : ManagersSound later ∧ later.Closed id ∧
      ∀ (session : Nat) (member : Exec.Member),
        later.executions.sessions[session]? = some member →
          member.machine.core.session.workspace = id → member.machine.entry ≠ none →
            ∃ before, managers.executions.sessions[session]? = some before ∧
              before.machine.entry ≠ none := by
    apply run.invariant
    · exact ⟨sound, closed, fun _ member located _ published =>
        ⟨member, located, published⟩⟩
    intro state action next held _ taken
    obtain ⟨stateSound, stateClosed, origin⟩ := held
    refine ⟨stateSound.step taken, stateSound.closed_step stateClosed taken, ?_⟩
    intro session member located home published
    obtain ⟨before, earlier, sameHome, known⟩ :=
      stateSound.published_step stateClosed taken located home published
    exact origin session before earlier sameHome known
  obtain ⟨laterSound, laterClosed, origin⟩ := along
  refine ⟨?_, origin⟩
  intro session member entry located home published isListed
  obtain ⟨group, found, sealed, present, finished⟩ := laterSound.sealed_of_closed laterClosed
  exact sealed.settled laterSound.executions present finished located home published isListed

/-! ## A workspace with one session -/

/-- `Open` of one root and `CreateSession` in that workspace. -/
def openSchedule : List Action :=
  .workspace (.openRoot 4) :: List.replicate 7 (.workspace (.call 0 .quiet)) ++
    ([.createSession 0, .creation 0 0 .quiet, .creation 0 0 (.returning 0),
      .creation 0 0 (.returning 0), .creation 0 0 .quiet, .creation 0 0 .quiet,
      .creation 0 0 .quiet, .creation 0 0 .quiet, .creation 0 0 .quiet] :
      List Exec.ManagerAction).map .execution

/-- `Close` of the workspace up to the publication of its result; the owner of the
session's close operation still has `sessionRegistry.finishClose` to run. -/
def closeSchedule : List Action :=
  [.workspace (.close 0), .workspace (.worker 0 .quiet), .workspace (.watcherExits 0),
    .workspace (.worker 0 .quiet), .workspace (.worker 0 .quiet)] ++
  ([.worker 0 [], .worker 0 [], .worker 0 [0], .worker 0 []] ++
    List.replicate 14 (.session 0 (.close .quiet [])) ++
    [.worker 0 [], .worker 0 [], .worker 0 []] : List Exec.ManagerAction).map .execution ++
  List.replicate 4 (.workspace (.worker 0 .quiet))

theorem Managers.closed_of_state (state : ((managers.workspaces.operations[id]?).bind (·.entry)).map
      (·.close.state) = some .finished) : managers.Closed id := by
  obtain ⟨entry, found, finished⟩ := Option.map_eq_some_iff.mp state
  obtain ⟨op, present, published⟩ := Option.bind_eq_some_iff.mp found
  exact ⟨op, entry, present, published, finished⟩

/-- The registry may still list a session when the workspace's result is published. -/
theorem listed_after_workspace_close :
    ∃ managers, Reaches Managers.step (.new 1 fun _ _ => ⟨"failed", []⟩) managers ∧
      managers.Closed 0 ∧
      managers.executions.sessions.map (fun member =>
        (member.machine.core.session.workspace, member.machine.entry)) =
        [(0, some ⟨.closing, true⟩)] := by
  have passed :
      (execute Managers.step (.new 1 fun _ _ => ⟨"failed", []⟩)
        (openSchedule ++ closeSchedule)).map
        (fun managers => decide
          (((managers.workspaces.operations[0]?).bind (·.entry)).map
              (·.close.state) = some .finished ∧
            managers.executions.sessions.map (fun member =>
              (member.machine.core.session.workspace, member.machine.entry)) =
              [(0, some ⟨.closing, true⟩)])) =
      some true := by
    decide
  obtain ⟨managers, reached, tested⟩ := exists_reaches_of_test passed
  obtain ⟨state, sessions⟩ := of_decide_eq_true tested
  exact ⟨managers, reached, Managers.closed_of_state state, sessions⟩

/-- A `CreateSession` that comes after the close does not find the workspace. -/
def lateSchedule : List Action :=
  ([.createSession 0, .creation 1 0 .quiet, .creation 1 0 .quiet,
    .session 0 (.close .quiet [])] : List Exec.ManagerAction).map .execution

theorem workspace_tornDown_late :
    ∃ managers later, Reaches Managers.step (.new 1 fun _ _ => ⟨"failed", []⟩) managers ∧
      managers.Closed 0 ∧ Reaches Managers.step managers later ∧
      later.executions.sessions.map (fun member => member.machine.entry) =
        [some ⟨.closing, false⟩] ∧
      WorkspaceTornDown 0 managers later := by
  have passed :
      (execute Managers.step (.new 1 fun _ _ => ⟨"failed", []⟩)
        (openSchedule ++ closeSchedule)).map
        (fun managers => decide
          (((managers.workspaces.operations[0]?).bind (·.entry)).map
              (·.close.state) = some .finished ∧
            (execute Managers.step managers lateSchedule).map (fun later =>
              later.executions.sessions.map (fun member => member.machine.entry)) =
              some [some ⟨.closing, false⟩])) =
      some true := by
    decide
  obtain ⟨managers, reached, tested⟩ := exists_reaches_of_test passed
  obtain ⟨state, late⟩ := of_decide_eq_true tested
  obtain ⟨later, executed, sessions⟩ := Option.map_eq_some_iff.mp late
  have closed := Managers.closed_of_state state
  have run := reaches_of_execute executed
  exact ⟨managers, later, reached, closed, run, sessions, workspace_tornDown reached closed run⟩

end Ferretd.Composition

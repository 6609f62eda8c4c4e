import Ferretd.Exec.ManagerSteps

/-!
# The manager's steps seen from one session and one group

A step of the manager is at most one step of one session and of one group.  A session
is published only into a group that accepts, by a creation that has found its
workspace.
-/

namespace Ferretd.Exec

open Library List

/-! ## The sessions -/

/-- What a step of the manager does to the sessions; `pool` are the groups after it. -/
inductive SessionsMove (mgr : Manager) (pool : List WorkspaceGroup) :
    List Member → Prop
  | same : SessionsMove mgr pool mgr.sessions
  | fresh {group : Nat} {m} (unpublished : m.entry = none) :
      SessionsMove mgr pool (mgr.sessions ++ [⟨group, m⟩])
  | moved {sid} {member : Member} {m own} (held : mgr.sessions[sid]? = some member)
      (taken : member.machine.step own = some m)
      (publishes : own = .publish →
        ∃ found, pool[member.group]? = some found ∧
          found.gate.close.state = .idle ∧ sid ∈ found.sessions) :
      SessionsMove mgr pool (mgr.sessions.set sid { member with machine := m })

theorem Manager.forget_frame (mgr : Manager) (ws group : Nat) :
    (mgr.forget ws group).sessions = mgr.sessions ∧
      (mgr.forget ws group).pool = mgr.pool := by
  unfold Manager.forget
  split <;> exact ⟨rfl, rfl⟩

variable {ws group sid : Nat} {pool : List WorkspaceGroup} {sessions : List Member}
  {member later : Member} {mgr located next : Manager}

theorem Manager.groupOf_frame (locates : mgr.groupOf ws = (located, group)) :
    located.sessions = mgr.sessions ∧
      (located.pool = mgr.pool ∨
        located.pool = mgr.pool ++ [.new ws] ∧ group = mgr.pool.length) := by
  unfold Manager.groupOf at locates
  split at locates
  · cases locates
    exact ⟨rfl, .inl rfl⟩
  · cases locates
    exact ⟨rfl, .inr ⟨rfl, rfl⟩⟩

/-- The part of `finishClose` that concerns the groups leaves the sessions alone and
takes the session out of a group that accepts. -/
theorem Manager.removeCompleted_frame (mgr : Manager) (sid ws : Nat) :
    (mgr.removeCompleted sid ws).sessions = mgr.sessions ∧
      ((mgr.removeCompleted sid ws).pool = mgr.pool ∨
        ∃ group found, mgr.pool[group]? = some found ∧
          (mgr.removeCompleted sid ws).pool =
            mgr.pool.set group (found.removeCompleted sid).2) := by
  unfold Manager.removeCompleted
  split
  · exact ⟨rfl, .inl rfl⟩
  rename_i group registered
  split
  · exact ⟨rfl, .inl rfl⟩
  rename_i found present
  dsimp only
  split
  · obtain ⟨sessions, pool⟩ := Manager.forget_frame
      (mgr.setGroup group (found.removeCompleted sid).2) ws group
    exact ⟨sessions, .inr ⟨group, found, present, pool⟩⟩
  · exact ⟨rfl, .inr ⟨group, found, present, rfl⟩⟩

variable {action : ManagerAction}

theorem ManagerEffect.sessions_move (sound : ManagerSound mgr)
    (effect : ManagerEffect mgr action next) :
    SessionsMove mgr next.pool next.sessions := by
  cases effect with
  | located =>
    rw [(Manager.groupOf_frame (Prod.eta _).symm).1]
    exact .same
  | @enroll _ target _ _ _ locates | @beginClose _ target _ _ locates =>
    show SessionsMove mgr _ target.sessions
    rw [(Manager.groupOf_frame locates).1]
    exact .same
  | @compiled group => exact .fresh rfl
  | discard _ _ held taken
  | closeSession _ _ held taken =>
    exact .moved held taken fun publishes => (by cases publishes)
  | @publish group found index sid member m _ present creator held _ _ accepting taken =>
    refine .moved held taken fun _ => ?_
    obtain ⟨same, known, home⟩ := sound.holders group found present _
      (mem_of_getElem? creator) sid rfl
    rw [held] at known
    cases known
    have idle : found.gate.close.state = .idle := by
      simpa [Gate.accepting] using accepting
    rw [home]
    exact ⟨(found.add sid).goOn index (.finish []),
      getElem?_set_self (List.getElem?_eq_some_iff.mp present).1, idle,
      mem_append_right _ mem_cons_self⟩
  | finishCreate _ _ _ result =>
    rcases result with rfl | ⟨_, _, _, rfl⟩
    · exact .same
    · rw [(Manager.forget_frame _ _ _).1]
      exact .same
  | session held direct taken =>
    exact .moved held taken fun publishes => absurd publishes direct.1
  | remove held _ taken =>
    rw [(Manager.removeCompleted_frame _ _ _).1]
    exact .moved held taken fun publishes => (by cases publishes)
  | finishClose =>
    rw [(Manager.forget_frame _ _ _).1]
    exact .same
  | _ => exact .same

theorem SessionsMove.member_step (move : SessionsMove mgr pool sessions)
    (located : mgr.sessions[sid]? = some member) :
    ∃ later, sessions[sid]? = some later ∧ later.group = member.group ∧
      (later.machine = member.machine ∨ ∃ own, member.machine.step own = some later.machine) := by
  have inside := (List.getElem?_eq_some_iff.mp located).1
  cases move with
  | same => exact ⟨member, located, rfl, .inl rfl⟩
  | fresh =>
    refine ⟨member, ?_, rfl, .inl rfl⟩
    rw [getElem?_append_left inside]
    exact located
  | @moved pos _ m own held taken =>
    by_cases same : pos = sid
    · subst same
      rw [located] at held
      cases held
      exact ⟨{ member with machine := m }, getElem?_set_self inside, rfl,
        .inr ⟨own, taken⟩⟩
    · refine ⟨member, ?_, rfl, .inl rfl⟩
      rw [getElem?_set_ne same]
      exact located

theorem SessionsMove.published (move : SessionsMove mgr pool sessions)
    (located : sessions[sid]? = some later)
    (published : later.machine.entry ≠ none) :
    (∃ member, mgr.sessions[sid]? = some member ∧ member.group = later.group ∧
        member.machine.entry ≠ none) ∨
      ∃ found, pool[later.group]? = some found ∧ found.gate.close.state = .idle ∧
        sid ∈ found.sessions := by
  cases move with
  | same => exact .inl ⟨later, located, rfl, published⟩
  | fresh unpublished =>
    rcases getElem?_concat_cases located with ⟨_, rfl⟩ | before
    · exact absurd unpublished published
    · exact .inl ⟨later, before, rfl, published⟩
  | @moved _ before _ own held taken publishes =>
    rcases getElem?_set_cases located with ⟨rfl, rfl⟩ | ⟨_, known⟩
    · by_cases publishing : own = .publish
      · exact .inr (publishes publishing)
      · have kept := ((SessionSound.entry_step taken).2 publishing).1
        exact .inl ⟨before, held, rfl, fun none => published (kept.2 none)⟩
    · exact .inl ⟨later, known, rfl, published⟩

/-! ## The groups -/

/-- Some creation of the group has found its workspace. -/
def WorkspaceGroup.Resolved (group : WorkspaceGroup) : Prop :=
  ∃ pc ∈ group.creations, pc.resolved = true

/-- The action is a successful `workspaces.Get` of a creation for the workspace. -/
def Manager.Resolves (mgr : Manager) (action : ManagerAction) (ws : Nat) :
    Prop :=
  ∃ group index answer found, action = .creation group index answer ∧
    mgr.pool[group]? = some found ∧ found.workspace = ws ∧
    found.creations[index]? = some .get ∧ answer.err = []

/-- One step of a group; `resolves` says that the step is a successful
`workspaces.Get`. -/
structure WorkspaceGroup.Moves (resolves : Prop) (before after : WorkspaceGroup) :
    Prop where
  workspace : after.workspace = before.workspace
  close : before.gate.close.Evolves after.gate.close
  sessions : after.gate.close.state ≠ .idle → after.sessions = before.sessions
  grows : ∀ sid ∈ after.sessions, sid ∈ before.sessions ∨ before.Resolved
  resolved : after.Resolved → before.Resolved ∨ resolves

namespace WorkspaceGroup

variable {index : Nat} {pc pc' : SessionCreatePC} {resolves : Prop} {group after : WorkspaceGroup}

theorem Moves.of_same (ws : after.workspace = group.workspace)
    (close : group.gate.close.Evolves after.gate.close) (sessions : after.sessions = group.sessions)
    (creations : ∀ pc ∈ after.creations, pc.resolved = true →
      pc ∈ group.creations ∨ group.Resolved ∨ resolves) :
    Moves resolves group after := by
  refine ⟨ws, close, fun _ => sessions, ?_, ?_⟩
  · intro sid inside
    rw [sessions] at inside
    exact .inl inside
  rintro ⟨pc, member, found⟩
  rcases creations pc member found with stays | resolved | resolving
  · exact .inl ⟨pc, stays, found⟩
  · exact .inl resolved
  · exact .inr resolving

theorem Moves.refl (resolves : Prop) (group : WorkspaceGroup) :
    Moves resolves group group :=
  Moves.of_same rfl (.refl _) rfl fun _ member _ => .inl member

theorem moves_goOn (creator : group.creations[index]? = some pc)
    (goesOn : pc'.resolved = true → pc.resolved = true ∨ resolves) :
    Moves resolves group (group.goOn index pc') := by
  refine Moves.of_same rfl (.refl _) rfl ?_
  intro other member found
  rcases mem_or_eq_of_mem_set member with stays | rfl
  · exact .inl stays
  · rcases goesOn found with before | resolving
    · exact .inr (.inl ⟨pc, mem_of_getElem? creator, before⟩)
    · exact .inr (.inr resolving)

theorem moves_beginClose (resolves : Prop) (group : WorkspaceGroup) :
    Moves resolves group group.beginClose := by
  unfold WorkspaceGroup.beginClose
  split
  · exact Moves.of_same rfl Gate.evolves_beginClose.close rfl fun _ member _ => .inl member
  · exact Moves.refl resolves group

theorem moves_removeCompleted (resolves : Prop) (group : WorkspaceGroup) (sid : Nat) :
    Moves resolves group (group.removeCompleted sid).2 := by
  refine ⟨rfl, .refl _, ?_, ?_, fun found => .inl found⟩
  · intro busy
    have started : group.gate.close.state ≠ .idle := busy
    have refuses : group.gate.accepting = false := by
      simpa [Gate.accepting] using started
    simp [WorkspaceGroup.removeCompleted, refuses]
  · intro other inside
    simp only [WorkspaceGroup.removeCompleted] at inside
    split at inside
    · exact .inl (mem_of_mem_erase inside)
    · exact .inl inside

end WorkspaceGroup

/-- Every group is kept, and a group that is made is empty. -/
structure PoolMoves (mgr : Manager) (action : ManagerAction)
    (after : List WorkspaceGroup) : Prop where
  kept :
    ∀ (group : Nat) (found : WorkspaceGroup), mgr.pool[group]? = some found →
      ∃ later, after[group]? = some later ∧
        found.Moves (mgr.Resolves action found.workspace) later
  fresh :
    ∀ (group : Nat) (later : WorkspaceGroup), after[group]? = some later →
      mgr.pool[group]? = none → later.sessions = [] ∧ ¬later.Resolved

namespace PoolMoves

variable {mgr : Manager} {action : ManagerAction}

theorem refl (mgr : Manager) (action : ManagerAction) :
    PoolMoves mgr action mgr.pool := by
  constructor
  · intro group found present
    exact ⟨found, present, .refl _ found⟩
  · intro group later present absent
    rw [present] at absent
    cases absent

theorem not_resolved_new (ws : Nat) : ¬(WorkspaceGroup.new ws).Resolved := by
  rintro ⟨pc, member, _⟩
  cases member

variable {found next : WorkspaceGroup}

theorem set (present : mgr.pool[group]? = some found)
    (moves : found.Moves (mgr.Resolves action found.workspace) next) :
    PoolMoves mgr action (mgr.pool.set group next) := by
  constructor
  · intro pos before known
    by_cases same : group = pos
    · subst same
      rw [present] at known
      cases known
      exact ⟨next, getElem?_set_self (List.getElem?_eq_some_iff.mp present).1, moves⟩
    · refine ⟨before, ?_, .refl _ before⟩
      rw [getElem?_set_ne same]
      exact known
  · intro pos later known absent
    rcases getElem?_set_cases known with ⟨rfl, rfl⟩ | ⟨_, stays⟩
    · rw [present] at absent
      cases absent
    · rw [stays] at absent
      cases absent

/-- The group of a workspace, which may have to be made, takes a step that is not a
`workspaces.Get`. -/
theorem setLocated (locates : mgr.groupOf ws = (located, group))
    (present : located.pool[group]? = some found) (moves : found.Moves False next) :
    PoolMoves mgr action (located.pool.set group next) := by
  have weakened : ∀ resolves, found.Moves resolves next := by
    intro resolves
    refine ⟨moves.workspace, moves.close, moves.sessions, moves.grows, fun after => ?_⟩
    rcases moves.resolved after with before | impossible
    · exact .inl before
    · cases impossible
  rcases (Manager.groupOf_frame locates).2 with same | ⟨added, last⟩
  · rw [same] at present ⊢
    exact set present (weakened _)
  rw [added] at present ⊢
  have isNew : found = .new ws := by
    rcases getElem?_concat_cases present with ⟨_, fresh⟩ | before
    · exact fresh
    · have inside := (List.getElem?_eq_some_iff.mp before).1
      omega
  constructor
  · intro pos before known
    have inside := (List.getElem?_eq_some_iff.mp known).1
    refine ⟨before, ?_, .refl _ before⟩
    rw [getElem?_set_ne (by omega), getElem?_append_left inside]
    exact known
  · intro pos later known absent
    rcases getElem?_set_cases known with ⟨_, rfl⟩ | ⟨different, stays⟩
    · subst isNew
      constructor
      · rw [eq_nil_iff_forall_not_mem]
        intro sid inside
        rcases moves.grows sid inside with empty | resolved
        · cases empty
        · exact not_resolved_new ws resolved
      · intro resolved
        rcases moves.resolved resolved with before | impossible
        · exact not_resolved_new ws before
        · cases impossible
    · rcases getElem?_concat_cases stays with ⟨pos, _⟩ | before
      · exact absurd (pos.trans last.symm) different
      · rw [before] at absent
        cases absent

end PoolMoves

theorem ManagerEffect.pool_moves (effect : ManagerEffect mgr action next) :
    PoolMoves mgr action next.pool := by
  cases effect with
  | keep => exact .refl _ _
  | @located action ws =>
    have locates := (Prod.eta (mgr.groupOf ws)).symm
    rcases (Manager.groupOf_frame locates).2 with same | ⟨added, last⟩
    · rw [same]
      exact .refl _ _
    have present : (mgr.groupOf ws).1.pool[mgr.pool.length]? =
        some (.new ws) := by
      rw [added]
      simp
    rw [← last] at present
    rw [← congrArg Manager.pool (ManagerEffect.setGroup_self present)]
    exact .setLocated locates present (.refl _ _)
  | enroll _ locates present =>
    refine .setLocated locates present ?_
    refine .of_same rfl Gate.evolves_beginCreate.close rfl ?_
    intro pc member resolved
    rcases mem_append.mp member with stays | fresh
    · exact .inl stays
    · cases mem_singleton.mp fresh
      cases resolved
  | @goOn group found index _ answer _ present creator _ resolves =>
    refine .set present (WorkspaceGroup.moves_goOn creator fun after => ?_)
    rcases resolves after with before | ⟨rfl, quiet⟩
    · exact .inl before
    · exact .inr ⟨group, index, answer, found, rfl, present, rfl, creator, quiet⟩
  | compiled present creator | discard present creator =>
    exact .set present (WorkspaceGroup.moves_goOn creator fun _ => .inl rfl)
  | @publish group found _ sid _ _ _ present creator _ _ _ accepting =>
    -- The only step that adds a session: its group accepts, and the creation that
    -- adds it has found the workspace.
    have resolved : found.Resolved := ⟨_, mem_of_getElem? creator, rfl⟩
    refine .set present
      ⟨rfl, .refl _, ?_, fun _ _ => .inr resolved, fun _ => .inl resolved⟩
    intro busy
    have idle : found.gate.close.state = .idle := by
      simpa [Gate.accepting] using accepting
    exact absurd idle busy
  | @finishCreate group found index _ _ answer _ gate present _ ended result =>
    have moves : PoolMoves mgr (.creation group index answer)
        (mgr.pool.set group { found with
          gate := gate
          creations := found.creations.eraseIdx index }) := by
      refine .set present ?_
      refine .of_same rfl (Gate.evolves_endCreate ended).close rfl ?_
      intro pc member _
      exact .inl (mem_of_mem_eraseIdx member)
    rcases result with rfl | ⟨_, _, _, rfl⟩
    · exact moves
    · rw [(Manager.forget_frame _ _ _).2]
      exact moves
  | @session _ _ _ _ action => exact .refl mgr action
  | @remove sid member m =>
    rcases (Manager.removeCompleted_frame (mgr.setSession sid { member with machine := m }) sid
      member.machine.core.session.workspace).2 with same | ⟨group, found, present, set⟩
    · rw [same]
      exact .refl mgr _
    · rw [set]
      exact .set present (found.moves_removeCompleted _ sid)
  | @beginClose _ _ _ found locates present =>
    exact .setLocated locates present (found.moves_beginClose _)
  | shutdown =>
    constructor
    · intro group found present
      simp only [Manager.beginShutdown, getElem?_mapIdx, present, Option.map_some,
        Option.some.injEq, exists_eq_left']
      split
      · exact found.moves_beginClose _
      · exact .refl _ found
    · intro group later present absent
      simp [Manager.beginShutdown, getElem?_mapIdx, absent] at present
  | owner present | @closeSession _ _ _ member _ _ _ _ present =>
    exact .set present (.of_same rfl
      (.refl _) rfl fun _ member _ => .inl member)
  | finishClose present _ finished =>
    rw [(Manager.forget_frame _ _ _).2]
    exact .set present (.of_same rfl
      (Gate.evolves_finishClose finished).close rfl fun _ member _ => .inl member)

end Ferretd.Exec

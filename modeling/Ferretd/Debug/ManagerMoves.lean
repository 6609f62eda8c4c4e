import Ferretd.Debug.ManagerEffects
import Ferretd.Library.Tally

/-!
# Views of a step of the debug manager

What one step does to one group, to one debug session and to the map from parents to
groups.
-/

namespace Ferretd.Debug

open Library List

/-! ## The groups -/

inductive GroupMove (mgr next : Manager) (action : ManagerAction) (group : Nat)
    (found : SessionGroup) : SessionGroup → Prop
  | gate {gate} (close : gate.close = found.gate.close) :
      GroupMove mgr next action group found { found with gate := gate }
  | publish {member : Member} (accepting : found.gate.close.state = .idle)
      (registered : mgr.groups member.machine.session.runtime.sessionID = some group)
      (added : next.members[mgr.members.length]? = some member)
      (home : member.group = group) (active : member.active = true) :
      GroupMove mgr next action group found
        { found with sessions := found.sessions ++ [mgr.members.length] }
  | remove {id : Nat} (removes : action = .finishSessionClose id) :
      GroupMove mgr next action group found { found with sessions := found.sessions.erase id }
  | beginClose (idle : found.gate.close.state = .idle) :
      GroupMove mgr next action group found
        { found with gate := found.gate.beginClose.2, worker := some .waitForCreates }
  | owner {pc pc'} (working : found.worker = some pc) (move : OwnerMove mgr found pc pc') :
      GroupMove mgr next action group found { found with worker := some pc' }
  | detachSession {rest result} {id : Nat}
      (working : found.worker = some (.detachSession (id :: rest) result)) :
      GroupMove mgr next action group found
        { found with worker := some (.beginClose id rest result) }
  | beginSession {rest result} {id : Nat}
      (working : found.worker = some (.beginClose id rest result)) :
      GroupMove mgr next action group found
        { found with worker := some (.awaitClose id rest result) }
  | finishClose {result gate} (working : found.worker = some (.finishClose result))
      (finished : found.gate.finishClose result = .ok gate) :
      GroupMove mgr next action group found
        { found with gate := gate, worker := some .delete }
  | delete (working : found.worker = some .delete) :
      GroupMove mgr next action group found { found with worker := none }

variable {mgr next : Manager} {action : ManagerAction} {target : Nat} {member : Member}

namespace GroupMove

variable {found : SessionGroup} {group : Nat}

theorem refl : GroupMove mgr next action group found found :=
  gate rfl

section

variable {later : SessionGroup} (move : GroupMove mgr next action group found later)
include move

theorem parent : later.parent = found.parent := by
  cases move <;> rfl

theorem close : found.gate.close.Evolves later.gate.close := by
  cases move with
  | gate close =>
    show found.gate.close.Evolves (Gate.close _)
    rw [close]
    exact .refl _
  | beginClose => exact Gate.evolves_beginClose.close
  | finishClose _ finished => exact (Gate.evolves_finishClose finished).close
  | _ =>
    exact .refl _

end

end GroupMove

/-- Every group is kept, and a group that is made is empty and open. -/
structure PoolMoves (mgr next : Manager) (action : ManagerAction) : Prop where
  kept :
    ∀ (group : Nat) (found : SessionGroup), mgr.pool[group]? = some found →
      ∃ later, next.pool[group]? = some later ∧ GroupMove mgr next action group found later
  fresh :
    ∀ (group : Nat) (later : SessionGroup), next.pool[group]? = some later →
      mgr.pool[group]? = none → later.sessions = [] ∧ later.worker = none

namespace PoolMoves

theorem same (pool : next.pool = mgr.pool) : PoolMoves mgr next action := by
  constructor
  · intro group found present
    rw [pool]
    exact ⟨found, present, .refl⟩
  · intro group later present absent
    rw [pool, absent] at present
    cases present

theorem set {known after : SessionGroup} (pool : next.pool = mgr.pool.set target after)
    (present : mgr.pool[target]? = some known)
    (move : GroupMove mgr next action target known after) :
    PoolMoves mgr next action := by
  constructor
  · intro group found located
    rw [pool]
    by_cases same : target = group
    · subst same
      rw [present] at located
      cases located
      exact ⟨after, getElem?_set_self (List.getElem?_eq_some_iff.mp present).1, move⟩
    · rw [getElem?_set_ne same]
      exact ⟨found, located, .refl⟩
  · intro group later located absent
    rw [pool] at located
    rcases getElem?_set_cases located with ⟨rfl, rfl⟩ | ⟨_, stays⟩
    · rw [present] at absent
      cases absent
    · rw [stays] at absent
      cases absent

end PoolMoves

theorem ManagerEffect.pool_moves (effect : ManagerEffect mgr action next) :
    PoolMoves mgr next action := by
  cases effect with
  | opened absent =>
    constructor
    · intro group found present
      have inside := (List.getElem?_eq_some_iff.mp present).1
      exact ⟨found, (getElem?_append_left inside).trans present, .refl⟩
    intro group later located absent
    rcases getElem?_concat_cases located with ⟨_, rfl⟩ | before
    · exact ⟨rfl, rfl⟩
    · rw [before] at absent
      cases absent
  | gate present close | @discard _ _ _ _ gate _ _ present close =>
    exact .set rfl present (.gate close)
  | publish registered present accepting =>
    exact .set rfl present
      (.publish accepting registered (getElem?_concat_length) rfl rfl)
  | remove _ removes =>
    rcases removes with ⟨_, rfl⟩ | ⟨group, found, _, present, rfl | ⟨_, _, rfl⟩⟩
    · exact .same rfl
    · exact .set rfl present (.remove rfl)
    · exact .set rfl present (.remove rfl)
  | beginClose _ present idle =>
    exact .set rfl present (.beginClose idle)
  | owner present working move =>
    exact .set rfl present (.owner working move)
  | detachSession present working =>
    exact .set rfl present (.detachSession working)
  | beginSession present working =>
    exact .set rfl present (.beginSession working)
  | finishClose present working finished =>
    exact .set rfl present (.finishClose working finished)
  | delete present working deletes =>
    rcases deletes with rfl | ⟨_, rfl⟩ <;>
      exact .set rfl present (.delete working)
  | _ => exact .same rfl

/-! ## The sessions -/

/-- `detachSession` finds the session. -/
def Member.findable (member : Member) : Bool :=
  member.active || member.closing

structure MemberMove (mgr next : Manager) (action : ManagerAction) (id : Nat)
    (before after : Member) : Prop where
  group : after.group = before.group
  parent : after.machine.session.runtime.sessionID = before.machine.session.runtime.sessionID
  close : before.machine.session.close.Evolves after.machine.session.close
  findable :
    before.findable = true →
      after.findable = true ∨
        action = .finishSessionClose id ∧
          ∀ group found,
            mgr.groups before.machine.session.runtime.sessionID = some group →
            mgr.pool[group]? = some found →
              next.pool[group]? = some { found with sessions := found.sessions.erase id }

namespace MemberMove

variable {own : SessionAction} {m : SessionMachine} {known : Member} {mgr next : Manager}
  {action : ManagerAction} {id : Nat}
variable {before after : Member}

theorem refl : MemberMove mgr next action id before before :=
  ⟨rfl, rfl, .refl _, .inl⟩

theorem detach : MemberMove mgr next action id before
    { before with active := false, closing := true } :=
  ⟨rfl, rfl, .refl _, fun _ => .inl rfl⟩

theorem step {removing : Bool} (taken : before.machine.step own = some m) :
    MemberMove mgr next action id before
      { before with machine := m, removing := removing } := by
  obtain ⟨runtime, close⟩ := SessionMachine.step_frame taken
  exact ⟨rfl, congrArg RuntimeView.sessionID runtime, close, .inl⟩

theorem set (members : next.members = mgr.members.set target after)
    (held : mgr.members[target]? = some known)
    (move : MemberMove mgr next action target known after)
    (located : mgr.members[id]? = some before) :
    ∃ later, next.members[id]? = some later ∧
      MemberMove mgr next action id before later := by
  rw [members]
  by_cases same : target = id
  · subst same
    rw [held] at located
    cases located
    exact ⟨after, getElem?_set_self (List.getElem?_eq_some_iff.mp held).1, move⟩
  · rw [getElem?_set_ne same]
    exact ⟨before, located, refl⟩

end MemberMove

theorem ManagerEffect.member_move (effect : ManagerEffect mgr action next) {id : Nat}
    (located : mgr.members[id]? = some member) :
    ∃ later, next.members[id]? = some later ∧
      MemberMove mgr next action id member later := by
  cases effect with
  | publish =>
    have inside := (List.getElem?_eq_some_iff.mp located).1
    exact ⟨member, (getElem?_append_left inside).trans located, .refl⟩
  | session held taken =>
    exact MemberMove.set rfl held (MemberMove.step taken) located
  | detach held =>
    exact MemberMove.set rfl held MemberMove.detach located
  | @remove known next target held removes =>
    -- The session leaves `closing` and, in the same section, its parent's group.
    have erased : MemberMove mgr next (.finishSessionClose target) target known
        { known with closing := false, removing := false } := by
      refine ⟨rfl, rfl, .refl _, fun _ => .inr ⟨rfl, ?_⟩⟩
      intro group found registered present
      have inside := (List.getElem?_eq_some_iff.mp present).1
      rcases removes with ⟨absent, _⟩ | ⟨other, known, same, there, rfl | ⟨_, _, rfl⟩⟩
      · rw [registered] at absent
        cases absent
      · rw [registered] at same
        cases same
        rw [present] at there
        cases there
        exact getElem?_set_self inside
      · rw [registered] at same
        cases same
        rw [present] at there
        cases there
        exact getElem?_set_self inside
    have members : next.members = mgr.members.set target
        { known with closing := false, removing := false } := by
      rcases removes with ⟨_, rfl⟩ | ⟨_, _, _, _, rfl | ⟨_, _, rfl⟩⟩ <;> rfl
    exact MemberMove.set members held erased located
  | detachSession _ _ held detached =>
    refine MemberMove.set rfl held ?_ located
    rcases detached with ⟨rfl, _⟩ | rfl
    · exact .refl
    · exact .detach
  | beginSession _ _ held taken =>
    exact MemberMove.set rfl held (MemberMove.step taken) located
  | delete _ _ deletes =>
    rcases deletes with rfl | ⟨_, rfl⟩ <;> exact ⟨member, located, MemberMove.refl⟩
  | _ =>
    exact ⟨member, located, .refl⟩

/-! ## The map from parents to groups -/

/-- What one step does to `groups`: only a group without sessions or a closed group is
deleted. -/
inductive RegistryMove (mgr next : Manager) : Prop
  | same (groups : next.groups = mgr.groups)
  | opened {parent fresh} (absent : mgr.groups parent = none)
      (groups : next.groups = Function.update mgr.groups parent (some mgr.pool.length))
      (added : next.pool[mgr.pool.length]? = some fresh) (own : fresh.parent = parent)
  | deleted {parent} {group : Nat} {found later : SessionGroup}
      (registered : mgr.groups parent = some group)
      (present : mgr.pool[group]? = some found) (reached : next.pool[group]? = some later)
      (ceased : later.sessions = [] ∨ found.worker = some .delete)
      (groups : next.groups = Function.update mgr.groups parent none)

theorem ManagerEffect.registry_move (effect : ManagerEffect mgr action next) :
    RegistryMove mgr next := by
  have kept : ∀ {group : Nat} {found after : SessionGroup},
      mgr.pool[group]? = some found →
        (mgr.pool.set group after)[group]? = some after := fun present =>
    getElem?_set_self (List.getElem?_eq_some_iff.mp present).1
  cases effect with
  | @opened parent _ _ absent =>
    exact .opened absent rfl getElem?_concat_length rfl
  | @discard parent group found _ _ _ registered present _ _ empty =>
    exact .deleted registered present (kept present) (.inl empty) rfl
  | remove _ removes =>
    rcases removes with
      ⟨_, rfl⟩ | ⟨group, found, registered, present, rfl | ⟨_, empty, rfl⟩⟩
    · exact .same rfl
    · exact .same rfl
    · exact .deleted registered present (kept present) (.inl empty) rfl
  | delete present working deletes =>
    rcases deletes with rfl | ⟨registered, rfl⟩
    · exact .same rfl
    · exact .deleted registered present (kept present) (.inr working) rfl
  | _ => exact .same rfl

end Ferretd.Debug

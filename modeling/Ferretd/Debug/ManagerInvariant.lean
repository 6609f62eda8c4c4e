import Ferretd.Debug.ManagerMoves

/-!
# The invariant of the debug manager

A group that accepts sessions has no owner yet.  As long as it has a session it is the
registered group of its parent, and all its sessions are found by `detachSession`.
-/

namespace Ferretd.Debug

open Library List

/-- `detachSession` finds the session, which is one of the group. -/
def Manager.Present (mgr : Manager) (group parent id : Nat) : Prop :=
  ∃ member, mgr.members[id]? = some member ∧ member.group = group ∧
    member.machine.session.runtime.sessionID = parent ∧ member.findable = true

/-- What holds of a group before its close operation begins. -/
structure GroupSound (mgr : Manager) (group : Nat) (found : SessionGroup) :
    Prop where
  worker : found.worker = none
  registered : found.sessions ≠ [] → mgr.groups found.parent = some group
  nodup : found.sessions.Nodup
  present : ∀ id ∈ found.sessions, mgr.Present group found.parent id

structure ManagerSound (mgr : Manager) : Prop where
  parents :
    ∀ parent group, mgr.groups parent = some group →
      ∃ found, mgr.pool[group]? = some found ∧ found.parent = parent
  groups :
    ∀ (group : Nat) (found : SessionGroup), mgr.pool[group]? = some found →
      found.gate.close.state = .idle → GroupSound mgr group found

theorem managerSound_new : ManagerSound .new := by
  constructor
  · nofun
  · intro group found present
    simp [Manager.new] at present

variable {mgr : Manager}

namespace ManagerSound

variable {action : ManagerAction} {next : Manager} {group : Nat} {found later : SessionGroup}

section

variable {parent : Nat} (sound : ManagerSound mgr)
include sound

theorem parents_step (taken : mgr.step action = some next)
    (registered : next.groups parent = some group) :
    ∃ found, next.pool[group]? = some found ∧ found.parent = parent := by
  have effect := ManagerEffect.of_step taken
  have before : mgr.groups parent = some group →
      ∃ found, next.pool[group]? = some found ∧ found.parent = parent := by
    intro known
    obtain ⟨found, present, own⟩ := sound.parents parent group known
    obtain ⟨later, reached, move⟩ := effect.pool_moves.kept group found present
    exact ⟨later, reached, move.parent.trans own⟩
  cases effect.registry_move with
  | same groups =>
    rw [groups] at registered
    exact before registered
  | @opened opening fresh _ groups added own =>
    rw [groups] at registered
    by_cases same : parent = opening
    · subst same
      rw [Function.update_self] at registered
      cases registered
      exact ⟨fresh, added, own⟩
    · rw [Function.update_of_ne same] at registered
      exact before registered
  | @deleted gone _ _ _ _ _ _ _ groups =>
    rw [groups] at registered
    by_cases same : parent = gone
    · subst same
      rw [Function.update_self] at registered
      cases registered
    · rw [Function.update_of_ne same] at registered
      exact before registered

theorem registered_before
    (before : GroupSound mgr group found) (present : mgr.pool[group]? = some found)
    (move : GroupMove mgr next action group found later) (inhabited : later.sessions ≠ []) :
    mgr.groups found.parent = some group := by
  cases move with
  | publish _ registered =>
    obtain ⟨same, located, own⟩ := sound.parents _ group registered
    rw [present] at located
    cases located
    rw [own]
    exact registered
  | @remove id =>
    apply before.registered
    rintro empty
    apply inhabited
    show found.sessions.erase id = []
    rw [empty]
    rfl
  | _ =>
    exact before.registered inhabited

theorem registered_step (taken : mgr.step action = some next)
    (registered : mgr.groups found.parent = some group)
    (present : mgr.pool[group]? = some found) (idle : found.gate.close.state = .idle)
    (reached : next.pool[group]? = some later) (inhabited : later.sessions ≠ []) :
    next.groups found.parent = some group := by
  cases (ManagerEffect.of_step taken).registry_move with
  | same groups =>
    rw [groups]
    exact registered
  | @opened opening _ absent groups =>
    have different : found.parent ≠ opening := by
      intro same
      rw [← same, registered] at absent
      cases absent
    rw [groups, Function.update_of_ne different]
    exact registered
  | @deleted gone _ _ _ registration knownPresent afterReached ceased groups =>
    have different : found.parent ≠ gone := by
      intro same
      rw [← same, registered] at registration
      cases registration
      rw [present] at knownPresent
      cases knownPresent
      rw [reached] at afterReached
      cases afterReached
      rcases ceased with empty | deleting
      · exact inhabited empty
      · rw [(sound.groups group found present idle).worker] at deleting
        cases deleting
    rw [groups, Function.update_of_ne different]
    exact registered

end

/-- The sessions of a group stay present: the section that lets go of a session also
takes it out of its group. -/
theorem present_step (before : GroupSound mgr group found)
    (taken : mgr.step action = some next) (present : mgr.pool[group]? = some found)
    (reached : next.pool[group]? = some later) {id : Nat} (inside : id ∈ found.sessions)
    (stays : id ∈ later.sessions) :
    next.Present group found.parent id := by
  obtain ⟨member, located, home, parent, findable⟩ := before.present id inside
  obtain ⟨after, afterLocated, move⟩ :=
    (ManagerEffect.of_step taken).member_move located
  refine ⟨after, afterLocated, move.group.trans home, move.parent.trans parent, ?_⟩
  rcases move.findable findable with found | ⟨_, erased⟩
  · exact found
  have registered := before.registered (ne_nil_of_mem inside)
  rw [← parent] at registered
  rw [erased group found registered present] at reached
  cases reached
  have gone : id ∉ found.sessions.erase id := before.nodup.not_mem_erase
  exact absurd stays gone

section

variable (sound : ManagerSound mgr) (taken : mgr.step action = some next)
include sound taken

theorem group_step
    (present : mgr.pool[group]? = some found) (reached : next.pool[group]? = some later)
    (move : GroupMove mgr next action group found later)
    (accepting : later.gate.close.state = .idle) : GroupSound next group later := by
  have idle : found.gate.close.state = .idle := by
    by_contra busy
    exact move.close.started busy accepting
  have before := sound.groups group found present idle
  have keeps : ∀ id ∈ found.sessions, id ∈ later.sessions →
      next.Present group later.parent id := by
    intro id inside stays
    rw [move.parent]
    exact present_step before taken present reached inside stays
  have registered : later.sessions ≠ [] → next.groups later.parent = some group := by
    intro inhabited
    rw [move.parent]
    exact sound.registered_step taken
      (sound.registered_before before present move inhabited) present idle reached inhabited
  cases move with
  | gate =>
    exact ⟨before.worker, registered, before.nodup, fun id inside => keeps id inside inside⟩
  | @publish member _ registration added home active =>
    refine ⟨before.worker, registered, ?_, ?_⟩
    · -- the new session has a number that no session has yet
      have fresh : mgr.members.length ∉ found.sessions := by
        intro inside
        obtain ⟨known, located, _⟩ := before.present _ inside
        have bound := (List.getElem?_eq_some_iff.mp located).1
        omega
      apply nodup_append.mpr
      refine ⟨before.nodup, by simp, ?_⟩
      intro id inside last isNew same
      rw [mem_singleton.mp isNew] at same
      exact fresh (same ▸ inside)
    · intro id inside
      rcases mem_append.mp inside with stays | isNew
      · exact keeps id stays inside
      cases mem_singleton.mp isNew
      obtain ⟨same, located, own⟩ := sound.parents _ group registration
      rw [present] at located
      cases located
      exact ⟨member, added, home, own.symm, by simp [Member.findable, active]⟩
  | @remove id =>
    exact ⟨before.worker, registered, before.nodup.erase id,
      fun other stays => keeps other (mem_of_mem_erase stays) stays⟩
  | beginClose idle =>
    simp [Gate.beginClose, CloseOperation.begin_of_idle idle] at accepting
  | owner working | detachSession working | beginSession working
  | finishClose working | delete working =>
    rw [before.worker] at working
    cases working

theorem step :
    ManagerSound next := by
  have moves := (ManagerEffect.of_step taken).pool_moves
  refine ⟨fun parent group registered => sound.parents_step taken registered, ?_⟩
  intro group later reached accepting
  cases present : mgr.pool[group]? with
  | none =>
    obtain ⟨empty, idle⟩ := moves.fresh group later reached present
    refine ⟨idle, fun inhabited => absurd empty inhabited, ?_, ?_⟩
    · rw [empty]
      exact nodup_nil
    · intro id inside
      rw [empty] at inside
      cases inside
  | some found =>
    obtain ⟨same, located, move⟩ := moves.kept group found present
    rw [reached] at located
    cases located
    exact sound.group_step taken present reached move accepting

end

end ManagerSound

theorem managerSound_run (reached : Reaches Manager.step .new mgr) :
    ManagerSound mgr := by
  apply reached.invariant
  · exact managerSound_new
  · intro state action next sound _ taken
    exact sound.step taken

end Ferretd.Debug

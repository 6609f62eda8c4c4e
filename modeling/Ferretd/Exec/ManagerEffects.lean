import Ferretd.Exec.Manager

/-!
# What the steps of the manager do

Inversion of the manager's step function: a step changes at most one group, one
session and the map from workspaces to groups, and each constructor says which and
under what condition.
-/

namespace Ferretd.Exec

open Library

/-- The session that a creation holds and has not published. -/
def SessionCreatePC.session : SessionCreatePC → Option Nat
  | .checkContext sid | .params sid | .newID sid | .commit sid
  | .discard sid _ _ => some sid
  | _ => none

/-- `workspaces.Get` has found the workspace. -/
def SessionCreatePC.resolved : SessionCreatePC → Bool
  | .get | .finish _ => false
  | _ => true

/-- The steps of a group's owner that change nothing else. -/
inductive OwnerMove (mgr : Manager) (group : WorkspaceGroup) :
    WorkspaceClosePC → WorkspaceClosePC → Prop
  | capture {captured} (waits : group.gate.waitForCreates = .ok captured) :
      OwnerMove mgr group .waitForCreates (.awaitCreates captured)
  | created {captured} (signal : group.gate.createsSignalled captured = true) :
      OwnerMove mgr group (.awaitCreates captured) .retainedSessions
  | retain {order} (visits : order.Perm group.sessions) :
      OwnerMove mgr group .retainedSessions (.closeSessions order [])
  | closed {result} : OwnerMove mgr group (.closeSessions [] result) (.finishClose result)
  | joined {sid member rest result} (present : mgr.sessions[sid]? = some member)
      (finished : member.machine.gate.close.state = .finished) :
      OwnerMove mgr group (.awaitSession sid rest result)
        (.closeSessions rest (result.join member.machine.gate.close.err))

inductive ManagerEffect (mgr : Manager) : ManagerAction → Manager → Prop
  | keep {action : ManagerAction} : ManagerEffect mgr action mgr
  | located {action : ManagerAction} {ws} (isOpen : mgr.closed = false) :
      ManagerEffect mgr action (mgr.groupOf ws).1
  | enroll {ws located group found} (isOpen : mgr.closed = false)
      (locates : mgr.groupOf ws = (located, group))
      (present : located.pool[group]? = some found)
      (admitted : found.gate.beginCreate.1 = true) :
      ManagerEffect mgr (.createSession ws) (located.setGroup group { found with
            gate := found.gate.beginCreate.2
            creations := found.creations ++ [.get] })
  | goOn {group found index} {pc : SessionCreatePC} {answer : Answer} {pc'}
      (present : mgr.pool[group]? = some found)
      (creator : found.creations[index]? = some pc) (holds : pc'.session = pc.session)
      (resolves : pc'.resolved = true → pc.resolved = true ∨ pc = .get ∧ answer.err = []) :
      ManagerEffect mgr (.creation group index answer)
        (mgr.setGroup group (found.goOn index pc'))
  | compiled {group found index} {answer : Answer} {pc'}
      (present : mgr.pool[group]? = some found)
      (creator : found.creations[index]? = some .compile)
      (holds : pc'.session = some mgr.sessions.length) :
      ManagerEffect mgr (.creation group index answer)
        ((mgr.compiled group found).setGroup group (found.goOn index pc'))
  | discard {sid err member next} {answer : Answer} {reported} {group index : Nat}
      {found : WorkspaceGroup} {failure : CreateFailure}
      (present : mgr.pool[group]? = some found)
      (creator : found.creations[index]? = some (.discard sid err failure))
      (held : mgr.sessions[sid]? = some member)
      (taken : member.machine.step .discard = some next) :
      ManagerEffect mgr (.creation group index answer)
        ((mgr.setSession sid { member with machine := next }).setGroup group
          (found.goOn index (.finish reported)))
  | publish {group found index sid member next} {answer : Answer}
      (present : mgr.pool[group]? = some found)
      (creator : found.creations[index]? = some (.commit sid))
      (held : mgr.sessions[sid]? = some member) (isOpen : mgr.closed = false)
      (current : mgr.groups found.workspace = some group)
      (accepting : found.gate.accepting = true)
      (taken : member.machine.step .publish = some next) :
      ManagerEffect mgr (.creation group index answer)
        ((mgr.setSession sid { member with machine := next }).setGroup group
          ((found.add sid).goOn index (.finish [])))
  | finishCreate {group found index next idle} {answer : Answer} {err gate}
      (present : mgr.pool[group]? = some found)
      (creator : found.creations[index]? = some (.finish err))
      (ended : found.gate.endCreate = .ok (idle, gate))
      (forgets :
        next = mgr.setGroup group
            { found with gate := gate, creations := found.creations.eraseIdx index } ∨
          idle = true ∧ gate.accepting = true ∧ found.sessions = [] ∧
            next = (mgr.setGroup group { found with
                gate := gate
                creations := found.creations.eraseIdx index }).forget found.workspace group) :
      ManagerEffect mgr (.creation group index answer) next
  | session {sid member own next} {action : ManagerAction}
      (held : mgr.sessions[sid]? = some member)
      (direct : own ≠ .publish ∧ own ≠ .discard) (taken : member.machine.step own = some next) :
      ManagerEffect mgr action (mgr.setSession sid { member with machine := next })
  | remove {sid member next} {answer : Answer} {order}
      (held : mgr.sessions[sid]? = some member)
      (owner : member.machine.worker = some .removeEntry)
      (taken : member.machine.step (.close answer order) = some next) :
      ManagerEffect mgr (.session sid (.close answer order))
        ((mgr.setSession sid { member with machine := next }).removeCompleted
          sid member.machine.core.session.workspace)
  | beginClose {ws located group found}
      (locates : mgr.groupOf ws = (located, group))
      (present : located.pool[group]? = some found) :
      ManagerEffect mgr (.closeWorkspace ws) (located.setGroup group found.beginClose)
  | shutdown : ManagerEffect mgr .close mgr.beginShutdown
  | owner {group found} {pc : WorkspaceClosePC} {pc' order}
      (present : mgr.pool[group]? = some found)
      (working : found.worker = some pc) (move : OwnerMove mgr found pc pc') :
      ManagerEffect mgr (.worker group order)
        (mgr.setGroup group { found with worker := some pc' })
  | closeSession {group found sid member next order rest result}
      (present : mgr.pool[group]? = some found)
      (working : found.worker = some (.closeSessions (sid :: rest) result))
      (held : mgr.sessions[sid]? = some member)
      (taken : member.machine.step .beginClose = some next) :
      ManagerEffect mgr (.worker group order)
        ((mgr.setSession sid { member with machine := next }).setGroup group
          { found with worker := some (.awaitSession sid rest result) })
  | finishClose {group found order result gate} (present : mgr.pool[group]? = some found)
      (working : found.worker = some (.finishClose result))
      (finished : found.gate.finishClose result = .ok gate) :
      ManagerEffect mgr (.worker group order)
        ((mgr.setGroup group { found with gate := gate, worker := none }).forget
          found.workspace group)

namespace ManagerEffect

variable {action : SessionAction} {answer : Answer} {pc : SessionCreatePC} {mgr next : Manager}
  {index : Nat}

theorem of_stepSession {sid : Nat} (taken : mgr.stepSession sid action = some next) :
    ∃ member m, mgr.sessions[sid]? = some member ∧
      member.machine.step action = some m ∧
      next = mgr.setSession sid { member with machine := m } := by
  simp only [Manager.stepSession] at taken
  split at taken
  · cases taken
  next member held =>
    obtain ⟨m, stepped, rfl⟩ := Option.map_eq_some_iff.mp taken
    exact ⟨member, m, held, stepped, rfl⟩

variable {group : Nat} {found : WorkspaceGroup}

theorem setGroup_self (present : mgr.pool[group]? = some found) :
    mgr.setGroup group found = mgr := by
  obtain ⟨inside, rfl⟩ := List.getElem?_eq_some_iff.mp present
  simp [Manager.setGroup]

theorem of_commitCreate {sid : Nat} (present : mgr.pool[group]? = some found)
    (creator : found.creations[index]? = some (.commit sid))
    (taken : mgr.commitCreate group index found answer sid = some next) :
    ManagerEffect mgr (.creation group index answer) next := by
  revert taken
  fun_cases Manager.commitCreate mgr group index found answer sid
  all_goals intro taken
  · cases taken
    exact goOn present creator rfl fun _ => .inl rfl
  · cases taken
    exact goOn present creator rfl fun _ => .inl rfl
  next admissible _ =>
    obtain ⟨published, stepped, rfl⟩ := Option.map_eq_some_iff.mp taken
    obtain ⟨member, m, held, moved, rfl⟩ := of_stepSession stepped
    simp only [not_or, ne_eq, Decidable.not_not, Bool.not_eq_true,
      Bool.not_eq_false] at admissible
    exact publish present creator held admissible.1 admissible.2.1 admissible.2.2 moved

theorem of_createStep (present : mgr.pool[group]? = some found)
    (creator : found.creations[index]? = some pc)
    (taken : mgr.createStep group index found answer pc = some next) :
    ManagerEffect mgr (.creation group index answer) next := by
  cases pc with
  | get =>
    cases taken
    refine goOn present creator ?_ ?_
    · split <;> rfl
    split
    next quiet => exact fun _ => .inr ⟨rfl, quiet⟩
    · nofun
  | refresh =>
    cases taken
    refine goOn present creator ?_ fun _ => .inl rfl
    split
    · rfl
    · split <;> rfl
  | compile =>
    simp only [Manager.createStep] at taken
    split at taken <;> cases taken
    · exact goOn present creator rfl fun _ => .inl rfl
    · refine compiled present creator ?_
      split <;> rfl
  | commit => exact of_commitCreate present creator taken
  | discard sid err failure =>
    obtain ⟨closed, stepped, rfl⟩ := Option.map_eq_some_iff.mp taken
    obtain ⟨member, m, held, moved, rfl⟩ := of_stepSession stepped
    exact discard present creator held moved
  | finish err =>
    simp only [Manager.createStep, WorkspaceGroup.finishCreate] at taken
    cases ended : found.gate.endCreate with
    | error => simp [ended] at taken
    | ok result =>
      obtain ⟨idle, gate⟩ := result
      simp only [ended] at taken
      cases taken
      refine finishCreate present creator ended ?_
      split
      next discards =>
        simp only [Bool.and_eq_true, List.isEmpty_iff] at discards
        exact .inr ⟨discards.1.1, discards.1.2, discards.2, rfl⟩
      · exact .inl rfl
  | _ =>
    cases taken
    refine goOn present creator ?_ fun _ => .inl rfl
    split <;> rfl

theorem of_closeStep {pc : WorkspaceClosePC} {order : List Nat}
    (present : mgr.pool[group]? = some found) (working : found.worker = some pc)
    (taken : mgr.closeStep group found order pc = some next) :
    ManagerEffect mgr (.worker group order) next := by
  have owns : ∀ {pc' : WorkspaceClosePC}, OwnerMove mgr found pc pc' →
      ManagerEffect mgr (.worker group order)
        (mgr.setGroup group { found with worker := some pc' }) :=
    fun move => owner present working move
  revert taken
  fun_cases Manager.closeStep mgr group found order pc
  all_goals intro taken
  case case8 sid rest result =>
    obtain ⟨begun, stepped, rfl⟩ := Option.map_eq_some_iff.mp taken
    obtain ⟨member, m, held, moved, rfl⟩ := of_stepSession stepped
    exact closeSession present working held moved
  all_goals cases taken
  next waits => exact owns (.capture waits)
  next captured signal => exact owns (.created signal)
  next visits => exact owns (.retain visits)
  next result => exact owns (.closed)
  next sid rest result member held err waits =>
    obtain ⟨finished, rfl⟩ := CloseOperation.wait_some waits
    exact owns (.joined held finished)
  next result gate finished =>
    exact finishClose present working finished

theorem of_step {action : ManagerAction} (taken : mgr.step action = some next) :
    ManagerEffect mgr action next := by
  revert taken
  fun_cases Manager.step mgr action
  all_goals intro taken
  next ws =>
    simp only [Manager.beginCreate] at taken
    split at taken
    · cases taken
      exact keep
    rename_i isOpen
    have unclosed : mgr.closed = false := by simpa using isOpen
    obtain ⟨found, present, rfl⟩ := Option.map_eq_some_iff.mp taken
    cases admitted : found.gate.beginCreate.1 with
    | true =>
      have grown : found.beginCreate = { found with
            gate := found.gate.beginCreate.2
            creations := found.creations ++ [.get] } := by
        simp [WorkspaceGroup.beginCreate, admitted]
      rw [grown]
      exact enroll unclosed rfl present admitted
    | false =>
      have same : found.beginCreate = found := by
        simp [WorkspaceGroup.beginCreate, admitted]
      rw [same, setGroup_self present]
      exact located unclosed
  · cases taken
  · cases taken
  next found present pc creator => exact of_createStep present creator taken
  next id _ _ =>
    obtain ⟨member, m, held, advanced, rfl⟩ := of_stepSession taken
    exact session held (by simp) advanced
  · cases taken
  next id own direct member held =>
    have outside : own ≠ .publish ∧ own ≠ .discard := by
      constructor <;> rintro rfl <;> cases direct
    obtain ⟨moved, stepped, rfl⟩ := Option.map_eq_some_iff.mp taken
    obtain ⟨same, m, present, advanced, rfl⟩ := of_stepSession stepped
    cases held.symm.trans present
    split
    next answer order owner => exact remove held owner advanced
    · exact session held outside advanced
  · cases taken
  next ws =>
    simp only [Manager.beginWorkspaceClose] at taken
    obtain ⟨found, present, rfl⟩ := Option.map_eq_some_iff.mp taken
    exact beginClose rfl present
  · cases taken
  · cases taken
  next found present pc working => exact of_closeStep present working taken
  · cases taken
    exact shutdown

end ManagerEffect

end Ferretd.Exec

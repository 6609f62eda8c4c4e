import Ferretd.Debug.Manager

/-!
# What the steps of the debug manager do

Inversion of the manager's step function, and what a session keeps in all its own
steps.
-/

namespace Ferretd.Debug

open Library

/-! ## One session -/

theorem Session.runCommand_frame (s : Session) (event : Option RuntimeEvent)
    (err : GoError) (runtimeErrorResume : Bool) :
    (s.runCommand event err runtimeErrorResume).runtime = s.runtime ∧
      (s.runCommand event err runtimeErrorResume).close = s.close := by
  unfold Session.runCommand
  split
  · exact ⟨rfl, rfl⟩
  split
  · cases event <;> dsimp only <;> split <;> exact ⟨rfl, rfl⟩
  unfold Session.applyRuntimeEventLocked
  split
  · exact ⟨rfl, rfl⟩
  rename_i event
  cases event.reason with
  | terminated =>
    dsimp only
    split <;> exact ⟨rfl, rfl⟩
  | _ =>
    exact ⟨rfl, rfl⟩

variable {ctxErr : GoError} {expected : State} {snapshot : SessionSnapshot} {action : SessionAction}

theorem Session.startCommand_frame {s started : Session}
    (accepted : s.startCommand ctxErr expected = .ok (snapshot, started)) :
    started.runtime = s.runtime ∧ started.close = s.close := by
  unfold Session.startCommand at accepted
  split at accepted
  · cases accepted
  split at accepted
  · cases accepted
  split at accepted
  · split at accepted <;> cases accepted
  · cases accepted
    exact ⟨rfl, rfl⟩

theorem Session.terminate_frame (s : Session) :
    s.terminate.runtime = s.runtime ∧ s.terminate.close = s.close := by
  unfold Session.terminate
  split <;> exact ⟨rfl, rfl⟩

theorem SessionMachine.requestTermination_frame (m : SessionMachine) :
    m.requestTermination.session.runtime = m.session.runtime ∧
      m.requestTermination.session.close = m.session.close := by
  unfold SessionMachine.requestTermination Session.requestTermination
  split <;> exact ⟨rfl, rfl⟩

theorem SessionMachine.step_frame {m next : SessionMachine} (taken : m.step action = some next) :
    next.session.runtime = m.session.runtime ∧
      m.session.close.Evolves next.session.close := by
  have same : ∀ {s : Session}, s.runtime = m.session.runtime ∧
      s.close = m.session.close →
        s.runtime = m.session.runtime ∧
          m.session.close.Evolves s.close := by
    intro s frame
    rw [frame.2]
    exact ⟨frame.1, .refl _⟩
  have starts : ∀ {requests : Nat → Option ResumeRequest} {ctxErr : GoError}
      {expected : State} {command : Command},
      ({ m with requests := requests }.startCommand ctxErr expected
        command).session.runtime = m.session.runtime ∧
      ({ m with requests := requests }.startCommand ctxErr expected
        command).session.close = m.session.close := by
    intro requests ctxErr expected command
    unfold SessionMachine.startCommand
    split
    · exact ⟨rfl, rfl⟩
    next accepted => exact Session.startCommand_frame accepted
  revert taken
  fun_cases SessionMachine.step m action
  all_goals intro taken
  case case16 err pc _ =>
    revert taken
    fun_cases SessionMachine.closeStep m err pc
    all_goals intro taken; cases taken
    · exact same m.requestTermination_frame
    · exact same ⟨rfl, rfl⟩
    · exact same ⟨rfl, rfl⟩
    · exact same ⟨rfl, rfl⟩
    next completed _ =>
      obtain ⟨close, finished, rfl⟩ := Session.completeClose_ok completed
      exact ⟨rfl, CloseOperation.evolves_finish finished⟩
  all_goals cases taken
  case case1 | case5 => exact same starts
  case case7 => exact same (Session.runCommand_frame _ _ _ _)
  case case10 => exact same m.requestTermination_frame
  case case12 => exact same (Session.terminate_frame _)
  case case13 => exact ⟨rfl, CloseOperation.evolves_begin _⟩
  all_goals exact same ⟨rfl, rfl⟩

/-! ## The manager -/

/-- The steps of a group's owner that change nothing else. -/
inductive OwnerMove (mgr : Manager) (found : SessionGroup) :
    GroupClosePC → GroupClosePC → Prop
  | capture {captured} (waits : found.gate.waitForCreates = .ok captured) :
      OwnerMove mgr found .waitForCreates (.awaitCreates captured)
  | created {captured} (signal : found.gate.createsSignalled captured = true) :
      OwnerMove mgr found (.awaitCreates captured) .snapshot
  | snapshot {order : List Nat} (visits : order.Perm found.sessions) :
      OwnerMove mgr found .snapshot (.detachSession order [])
  | missed {rest result} {id : Nat} (absent : mgr.detachSession id = none) :
      OwnerMove mgr found (.detachSession (id :: rest) result)
        (.detachSession rest (result.join []))
  | closed {result} : OwnerMove mgr found (.detachSession [] result) (.finishClose result)
  | joined {member : Member} {rest result} {id : Nat} (present : mgr.members[id]? = some member)
      (finished : member.machine.session.close.state = .finished) :
      OwnerMove mgr found (.awaitClose id rest result)
        (.detachSession rest (result.join member.machine.session.close.err))

/-- The calls under way change and nothing else. -/
def Manager.withCalls (mgr : Manager) (creations : List Creation)
    (closers : List Nat) : Manager :=
  { mgr with creations := creations, closers := closers }

/-- The effects of a step.  How the calls under way change is left open. -/
inductive ManagerEffect (mgr : Manager) : ManagerAction → Manager → Prop
  | calls {action : ManagerAction} {creations closers} :
      ManagerEffect mgr action (mgr.withCalls creations closers)
  | opened {parent} {action : ManagerAction} {creations}
      (absent : mgr.groups parent = none) : ManagerEffect mgr action { mgr with
          groups := Function.update mgr.groups parent (some mgr.pool.length)
          pool := mgr.pool ++ [⟨parent, Gate.new.beginCreate.2, [], none⟩]
          creations := creations }
  | gate {group : Nat} {found : SessionGroup} {action : ManagerAction} {creations gate}
      (present : mgr.pool[group]? = some found) (close : gate.close = found.gate.close) :
      ManagerEffect mgr action
        ((mgr.setGroup group { found with gate := gate }).withCalls creations mgr.closers)
  | discard {parent} {group : Nat} {found : SessionGroup} {action : ManagerAction} {gate creations}
      (registered : mgr.groups parent = some group)
      (present : mgr.pool[group]? = some found) (close : gate.close = found.gate.close)
      (accepting : found.gate.close.state = .idle) (empty : found.sessions = []) :
      ManagerEffect mgr action
        (((mgr.setGroup group { found with gate := gate }).forget parent).withCalls
          creations mgr.closers)
  | publish {group : Nat} {found : SessionGroup} {action : ManagerAction} {runtime : RuntimeView}
      {creations}
      (registered : mgr.groups runtime.sessionID = some group)
      (present : mgr.pool[group]? = some found)
      (accepting : found.gate.close.state = .idle) :
      ManagerEffect mgr action
        ((mgr.publish group found runtime).withCalls creations mgr.closers)
  | session {member : Member} {own : SessionAction} {m removing closers} {action : ManagerAction}
      {id : Nat} (held : mgr.members[id]? = some member)
      (taken : member.machine.step own = some m) :
      ManagerEffect mgr action
        ((mgr.setMember id { member with machine := m, removing := removing }).withCalls
            mgr.creations closers)
  | detach {member : Member} {closers} {action : ManagerAction} {id : Nat}
      (held : mgr.members[id]? = some member) (active : member.active = true) :
      ManagerEffect mgr action
        ((mgr.setMember id { member with active := false, closing := true }).withCalls
          mgr.creations closers)
  | remove {member : Member} {next} {id : Nat} (held : mgr.members[id]? = some member)
      (removes :
        mgr.groups member.machine.session.runtime.sessionID = none ∧
            next = mgr.setMember id { member with closing := false, removing := false } ∨
          ∃ group found,
            mgr.groups member.machine.session.runtime.sessionID = some group ∧
            mgr.pool[group]? = some found ∧
            (next = (mgr.setMember id
                { member with closing := false, removing := false }).setGroup group
                { found with sessions := found.sessions.erase id } ∨
              found.gate.close.state = .idle ∧ found.sessions.erase id = [] ∧
                next = ((mgr.setMember id
                  { member with closing := false, removing := false }).setGroup group
                  { found with sessions := found.sessions.erase id }).forget
                    member.machine.session.runtime.sessionID)) :
      ManagerEffect mgr (.finishSessionClose id) next
  | beginClose {parent} {group : Nat} {found : SessionGroup}
      (registered : mgr.groups parent = some group)
      (present : mgr.pool[group]? = some found) (idle : found.gate.close.state = .idle) :
      ManagerEffect mgr (.closeExecutionSession parent) (mgr.setGroup group { found with
            gate := found.gate.beginClose.2
            worker := some .waitForCreates })
  | owner {group : Nat} {found : SessionGroup} {pc : GroupClosePC} {pc'} {order : List Nat}
      (present : mgr.pool[group]? = some found)
      (working : found.worker = some pc) (move : OwnerMove mgr found pc pc') :
      ManagerEffect mgr (.worker group order)
        (mgr.setGroup group { found with worker := some pc' })
  | detachSession {rest result} {member : Member} {next} {order : List Nat} {group : Nat}
      {found : SessionGroup} {id : Nat}
      (present : mgr.pool[group]? = some found)
      (working : found.worker = some (.detachSession (id :: rest) result))
      (held : mgr.members[id]? = some member)
      (detached : next = member ∧ member.closing = true ∨
        next = { member with active := false, closing := true }) :
      ManagerEffect mgr (.worker group order)
        ((mgr.setMember id next).setGroup group
          { found with worker := some (.beginClose id rest result) })
  | beginSession {rest result} {member : Member} {m} {order : List Nat} {group : Nat}
      {found : SessionGroup} {id : Nat}
      (present : mgr.pool[group]? = some found)
      (working : found.worker = some (.beginClose id rest result))
      (held : mgr.members[id]? = some member)
      (taken : member.machine.step .beginClose = some m) :
      ManagerEffect mgr (.worker group order)
        ((mgr.setMember id { member with machine := m }).setGroup group
          { found with worker := some (.awaitClose id rest result) })
  | finishClose {group : Nat} {found : SessionGroup} {order : List Nat} {result gate}
      (present : mgr.pool[group]? = some found)
      (working : found.worker = some (.finishClose result))
      (finished : found.gate.finishClose result = .ok gate) :
      ManagerEffect mgr (.worker group order)
        (mgr.setGroup group { found with gate := gate, worker := some .delete })
  | delete {group : Nat} {found : SessionGroup} {next} {order : List Nat}
      (present : mgr.pool[group]? = some found) (working : found.worker = some .delete)
      (deletes : next = mgr.setGroup group { found with worker := none } ∨
        mgr.groups found.parent = some group ∧
          next = (mgr.setGroup group { found with worker := none }).forget found.parent) :
      ManagerEffect mgr (.worker group order) next
  | close : ManagerEffect mgr .close { mgr with closed := true }

namespace ManagerEffect

variable {index group : Nat} {creation : Creation} {runtime : RuntimeView}
  {answer : Except GoError RuntimeView} {own : SessionAction} {member : Member}
  {found : SessionGroup} {pc : GroupClosePC} {order : List Nat} {mgr next finished : Manager}

theorem keep (mgr : Manager) (action : ManagerAction) :
    ManagerEffect mgr action mgr :=
  calls

variable {parent id : Nat}

theorem of_beginCreate (taken : mgr.beginCreate parent = some next) :
    ManagerEffect mgr (.createSession parent) next := by
  revert taken
  fun_cases Manager.beginCreate mgr parent
  all_goals intro taken; cases taken
  · exact keep mgr _
  next absent => exact opened absent
  next group _ found present admitted =>
    have idle : found.gate.close.state = .idle := by
      by_contra busy
      simp [Gate.beginCreate_of_started busy] at admitted
    exact gate present (Gate.beginCreate_of_accepting idle).2.2
  · exact keep mgr _

variable {action : ManagerAction}

theorem of_commit (taken : mgr.commit index creation runtime = some next) :
    ManagerEffect mgr action next := by
  revert taken
  fun_cases Manager.commit mgr index creation runtime
  all_goals intro taken
  · obtain rfl := Option.some.inj taken
    exact calls
  · cases taken
  · obtain rfl := Option.some.inj taken
    exact calls
  next group registered found present admissible =>
    cases taken
    simp only [not_or, Bool.not_eq_true, Bool.not_eq_false] at admissible
    have idle : found.gate.close.state = .idle := by
      simpa [Gate.accepting] using admissible.2
    exact publish registered present idle

theorem of_finishCreate (creations : List Creation)
    (taken : mgr.finishCreate parent = some finished) :
    ManagerEffect mgr action { finished with creations := creations } := by
  revert taken
  fun_cases Manager.finishCreate mgr parent
  all_goals intro taken; cases taken
  · exact calls
  next group registered found present last after ended _ =>
    have close := (Gate.endCreate_ok ended).2.1
    split
    next discards =>
      simp only [Bool.and_eq_true, List.isEmpty_iff] at discards
      have idle : found.gate.close.state = .idle := by
        rw [← close]
        simpa [Gate.accepting] using discards.1.2
      exact discard registered present close idle discards.2
    · exact gate present close

theorem of_createStep (taken : mgr.createStep index creation answer = some next) :
    ManagerEffect mgr action next := by
  revert taken
  fun_cases Manager.createStep mgr index creation answer
  all_goals intro taken
  · cases taken
    exact calls
  · cases taken
    exact calls
  · exact of_commit taken
  · cases taken
    exact calls
  · obtain ⟨finished, ended, rfl⟩ := Option.map_eq_some_iff.mp taken
    exact of_finishCreate _ ended

theorem of_stepSession (taken : mgr.stepSession id own = some next) :
    ∃ member m removing, mgr.members[id]? = some member ∧
      member.machine.step own = some m ∧
      (own = .beginClose → removing = member.removing) ∧
      next = mgr.setMember id { member with machine := m, removing := removing } := by
  simp only [Manager.stepSession] at taken
  split at taken
  · cases taken
  rename_i member held
  obtain ⟨m, stepped, rfl⟩ := Option.map_eq_some_iff.mp taken
  refine ⟨member, m, _, held, stepped, ?_, rfl⟩
  rintro rfl
  rfl

theorem of_detachSession (taken : mgr.detachSession id = some next) :
    ∃ member, mgr.members[id]? = some member ∧
      (next = mgr ∧ member.closing = true ∨
        member.active = true ∧
          next = mgr.setMember id { member with active := false, closing := true }) := by
  revert taken
  fun_cases Manager.detachSession mgr id
  all_goals intro taken; cases taken
  next member held closing => exact ⟨member, held, .inl ⟨rfl, closing⟩⟩
  next member held _ active => exact ⟨member, held, .inr ⟨active, rfl⟩⟩

theorem setMember_self (held : mgr.members[id]? = some member) :
    mgr.setMember id member = mgr := by
  obtain ⟨inside, rfl⟩ := List.getElem?_eq_some_iff.mp held
  simp [Manager.setMember]

theorem of_finishSessionClose (taken : mgr.finishSessionClose id = some next) :
    ManagerEffect mgr (.finishSessionClose id) next := by
  revert taken
  fun_cases Manager.finishSessionClose mgr id
  all_goals intro taken
  · cases taken
  · cases taken
  next member held _ _ _ absent =>
    obtain rfl := Option.some.inj taken
    exact remove held (.inl ⟨absent, rfl⟩)
  · cases taken
  next member held _ _ _ group registered found present _ _ =>
    cases taken
    refine remove held (.inr ⟨group, found, registered, present, ?_⟩)
    split
    next discards =>
      simp only [Bool.and_eq_true, List.isEmpty_iff] at discards
      have idle : found.gate.close.state = .idle := by
        simpa [Gate.accepting] using discards.1.1
      exact .inr ⟨idle, discards.2, rfl⟩
    · exact .inl rfl

theorem of_closeExecutionSession (taken : mgr.closeExecutionSession parent = some next) :
    ManagerEffect mgr (.closeExecutionSession parent) next := by
  revert taken
  fun_cases Manager.closeExecutionSession mgr parent
  all_goals intro taken; cases taken
  · exact keep mgr _
  next group registered found present begun =>
    have idle : found.gate.close.state = .idle := by
      by_contra busy
      simp [Gate.beginClose_of_started busy] at begun
    exact beginClose registered present idle
  · exact keep mgr _

theorem of_closeStep (present : mgr.pool[group]? = some found) (working : found.worker = some pc)
    (taken : mgr.closeStep group found order pc = some next) :
    ManagerEffect mgr (.worker group order) next := by
  have owns : ∀ {pc' : GroupClosePC}, OwnerMove mgr found pc pc' →
      ManagerEffect mgr (.worker group order)
        (mgr.setGroup group { found with worker := some pc' }) :=
    fun move => owner present working move
  revert taken
  fun_cases Manager.closeStep mgr group found order pc
  all_goals intro taken
  · cases taken
  next waits =>
    cases taken
    exact owns (.capture waits)
  next captured signal =>
    cases taken
    exact owns (.created signal)
  · cases taken
  next visits =>
    cases taken
    exact owns (.snapshot visits)
  · cases taken
  next result =>
    cases taken
    exact owns .closed
  next id rest result absent =>
    cases taken
    exact owns (.missed absent)
  next id rest result detached detaches =>
    cases taken
    obtain ⟨member, held, ⟨rfl, closing⟩ | ⟨_, rfl⟩⟩ := of_detachSession detaches
    · have same : ManagerEffect _ (.worker group order) _ :=
        detachSession present working held (.inl ⟨rfl, closing⟩)
      rw [setMember_self held] at same
      exact same
    · exact detachSession present working held (.inr rfl)
  next id rest result =>
    obtain ⟨begun, stepped, rfl⟩ := Option.map_eq_some_iff.mp taken
    obtain ⟨member, m, removing, held, moved, kept, rfl⟩ := of_stepSession stepped
    cases kept rfl
    exact beginSession present working held moved
  · cases taken
  next id rest result member held err waits =>
    cases taken
    obtain ⟨finished, rfl⟩ := CloseOperation.wait_some waits
    exact owns (.joined held finished)
  · cases taken
  · cases taken
  next result after finished =>
    cases taken
    exact finishClose present working finished
  · cases taken
    refine delete present working ?_
    split
    next registered => exact .inr ⟨registered, rfl⟩
    · exact .inl rfl

theorem of_step (taken : mgr.step action = some next) :
    ManagerEffect mgr action next := by
  revert taken
  fun_cases Manager.step mgr action
  all_goals intro taken
  · exact of_beginCreate taken
  · cases taken
  · exact of_createStep taken
  · cases taken
  next id own _ =>
    obtain ⟨member, m, removing, held, moved, _, rfl⟩ := of_stepSession taken
    exact session held moved
  · cases taken
    exact keep mgr _
  next id detached detaches =>
    cases taken
    obtain ⟨member, held, ⟨rfl, _⟩ | ⟨active, rfl⟩⟩ := of_detachSession detaches
    · exact calls
    · exact detach held active
  · cases taken
  next id pending =>
    obtain ⟨begun, stepped, rfl⟩ := Option.map_eq_some_iff.mp taken
    obtain ⟨member, m, removing, held, moved, _, rfl⟩ := of_stepSession stepped
    exact session held moved
  · exact of_finishSessionClose taken
  · exact of_closeExecutionSession taken
  · cases taken
  · cases taken
  next present pc working => exact of_closeStep present working taken
  · cases taken
    exact close

end ManagerEffect

end Ferretd.Debug

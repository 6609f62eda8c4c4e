import Ferretd.Debug.ManagerInvariant
import Ferretd.Debug.SessionStates

/-!
# Cleanup errors under the debug manager

The last section of `finishSessionClose` lets go of a session without regard to the close
operation of its group.  A session whose removal does not overtake the owner of that
operation is followed to its result.
-/

namespace Ferretd.Debug

open Library List

/-- The owner has still to look the session up. -/
def GroupClosePC.awaits (id : Nat) : GroupClosePC → Bool
  | .waitForCreates | .awaitCreates _ | .snapshot => true
  | .detachSession remaining _ | .beginClose _ remaining _ | .awaitClose _ remaining _ =>
    decide (id ∈ remaining)
  | .finishClose _ | .delete => false

def SessionGroup.awaits (group : SessionGroup) (id : Nat) : Bool :=
  match group.worker with
  | none => false
  | some pc => pc.awaits id

/-- The step lets go of a session that the owner of its group has still to look up. -/
def Manager.overtakes (mgr : Manager) : ManagerAction → Bool
  | .finishSessionClose id =>
    match mgr.members[id]? with
    | none => false
    | some member =>
      match mgr.pool[member.group]? with
      | none => false
      | some group => group.awaits id
  | _ => false

/-- The session's result is part of the error value. -/
structure Member.JoinedInto (member : Member) (result : GoError) : Prop where
  finished : member.machine.session.close.state = .finished
  included : member.machine.session.close.err ⊆ result

/-- What the owner of a close operation has done for a session of the group. -/
def GroupClosePC.Follows (sessions : List Nat) (id : Nat) (member : Member) :
    GroupClosePC → Prop
  | .waitForCreates | .awaitCreates _ | .snapshot =>
    id ∈ sessions ∧ member.findable = true
  | .detachSession remaining result =>
    id ∈ remaining ∧ member.findable = true ∨ member.JoinedInto result
  | .beginClose s remaining result | .awaitClose s remaining result =>
    id = s ∨ id ∈ remaining ∧ member.findable = true ∨ member.JoinedInto result
  | .finishClose result => member.JoinedInto result
  | .delete => True

/-- The session is on its way into the result of the group, or part of it. -/
structure SessionGroup.Follows (group : SessionGroup) (id : Nat) (member : Member) :
    Prop where
  busy : group.gate.close.state ≠ .idle
  working : ∀ pc, group.worker = some pc → pc.Follows group.sessions id member
  joined : group.gate.close.state = .finished → member.JoinedInto group.gate.close.err

variable {result further : GoError}

theorem Member.JoinedInto.mono {member : Member}
    (joined : member.JoinedInto result) (more : result ⊆ further) :
    member.JoinedInto further :=
  ⟨joined.finished, List.Subset.trans joined.included more⟩

theorem Member.JoinedInto.evolves {member after : Member} (joined : member.JoinedInto result)
    (close : member.machine.session.close.Evolves after.machine.session.close) :
    after.JoinedInto result := by
  have same := close.finished joined.finished
  exact ⟨by rw [same]; exact joined.finished, by rw [same]; exact joined.included⟩

/-! ## One step -/

section Step

variable {mgr next : Manager} {action : ManagerAction} {target id : Nat}
variable {found later : SessionGroup} {member after : Member}

variable {pc pc' : GroupClosePC}

theorem GroupClosePC.Follows.evolves {sessions : List Nat} (follows : pc.Follows sessions id member)
    (findable : pc.awaits id = true → member.findable = true → after.findable = true)
    (close : member.machine.session.close.Evolves after.machine.session.close) :
    pc.Follows sessions id after := by
  cases pc with
  | detachSession =>
    rcases follows with ⟨inside, found⟩ | joined
    · exact .inl ⟨inside, findable (decide_eq_true inside) found⟩
    · exact .inr (joined.evolves close)
  | beginClose | awaitClose =>
    rcases follows with isCurrent | ⟨inside, found⟩ | joined
    · exact .inl isCurrent
    · exact .inr (.inl ⟨inside, findable (decide_eq_true inside) found⟩)
    · exact .inr (.inr (joined.evolves close))
  | finishClose => exact Member.JoinedInto.evolves follows close
  | delete => trivial
  | _ => exact ⟨follows.1, findable rfl follows.2⟩

theorem SessionGroup.Follows.evolves (follows : found.Follows id member)
    (findable : found.awaits id = true → member.findable = true → after.findable = true)
    (close : member.machine.session.close.Evolves after.machine.session.close) :
    found.Follows id after := by
  refine ⟨follows.busy, ?_, fun finished => (follows.joined finished).evolves close⟩
  intro pc working
  refine (follows.working pc working).evolves (fun awaited => findable ?_) close
  simpa [SessionGroup.awaits, working] using awaited

theorem Manager.detachSession_ne_none (located : mgr.members[id]? = some member)
    (findable : member.findable = true) : mgr.detachSession id ≠ none := by
  simp only [Manager.detachSession, located]
  cases closing : member.closing with
  | true => simp
  | false =>
    have active : member.active = true := by
      simpa [Member.findable, closing] using findable
    simp [active]

theorem OwnerMove.follows (move : OwnerMove mgr found pc pc')
    (located : mgr.members[id]? = some member) (follows : pc.Follows found.sessions id member) :
    pc'.Follows found.sessions id member := by
  cases move with
  | capture | created => exact follows
  | snapshot visits => exact .inl ⟨visits.mem_iff.mpr follows.1, follows.2⟩
  | missed absent =>
    rcases follows with ⟨inside, findable⟩ | joined
    · rcases mem_cons.mp inside with rfl | later
      · exact absurd absent (Manager.detachSession_ne_none located findable)
      · exact .inl ⟨later, findable⟩
    · exact .inr (joined.mono (GoError.subset_join_left _ _))
  | closed =>
    rcases follows with ⟨inside, _⟩ | joined
    · cases inside
    · exact joined
  | joined present finished =>
    rcases follows with rfl | later | joined
    · rw [located] at present
      cases present
      exact .inr ⟨finished, GoError.subset_join_right _ _⟩
    · exact .inl later
    · exact .inr (joined.mono (GoError.subset_join_left _ _))

theorem SessionGroup.Follows.goOn (follows : found.Follows id member)
    (working : found.worker = some pc)
    (goesOn : pc.Follows found.sessions id member → pc'.Follows found.sessions id member) :
    { found with worker := some pc' }.Follows id member := by
  refine ⟨follows.busy, ?_, follows.joined⟩
  intro current known
  cases known
  exact goesOn (follows.working pc working)

section

variable (move : GroupMove mgr next action target found later)
include move

/-- The group takes a step; a session is removed only when the owner has looked it
up. -/
theorem GroupMove.follows (located : mgr.members[id]? = some member)
    (patient : action = .finishSessionClose id → found.awaits id = false)
    (follows : found.Follows id member) : later.Follows id member := by
  cases move with
  | @gate gate close =>
    refine ⟨?_, follows.working, ?_⟩
    · show (Gate.close gate).state ≠ .idle
      rw [close]
      exact follows.busy
    · show (Gate.close gate).state = .finished → member.JoinedInto (Gate.close gate).err
      rw [close]
      exact follows.joined
  | publish accepting => exact absurd accepting follows.busy
  | beginClose idle => exact absurd idle follows.busy
  | @remove other removes =>
    refine ⟨follows.busy, ?_, follows.joined⟩
    intro pc working
    have before := follows.working pc working
    have stays : pc.awaits id = true → id ∈ found.sessions → id ∈ found.sessions.erase other := by
      intro awaited inside
      refine (mem_erase_of_ne ?_).mpr inside
      rintro rfl
      have unawaited := patient removes
      simp only [SessionGroup.awaits] at unawaited
      have isWorking : found.worker = some pc := working
      rw [isWorking] at unawaited
      exact absurd awaited (by simp [unawaited])
    cases pc with
    | waitForCreates | awaitCreates | snapshot => exact ⟨stays rfl before.1, before.2⟩
    | _ => exact before
  | owner working move => exact follows.goOn working (move.follows located)
  | detachSession working =>
    refine follows.goOn working ?_
    rintro (⟨inside, findable⟩ | joined)
    · rcases mem_cons.mp inside with isCurrent | later
      · exact .inl isCurrent
      · exact .inr (.inl ⟨later, findable⟩)
    · exact .inr (.inr joined)
  | beginSession working =>
    exact follows.goOn working fun follows => follows
  | finishClose working finished =>
    obtain ⟨_, _, rfl⟩ := Gate.finishClose_ok finished
    refine ⟨by simp, ?_, fun _ => follows.working _ working⟩
    intro pc known
    cases known
    trivial
  | delete =>
    refine ⟨follows.busy, ?_, follows.joined⟩
    intro pc known
    cases known

theorem GroupMove.awaits
    (busy : found.gate.close.state ≠ .idle) (awaited : later.awaits id = true) :
    found.awaits id = true := by
  cases move with
  | gate | remove => exact awaited
  | publish accepting => exact absurd accepting busy
  | beginClose idle => exact absurd idle busy
  | owner working move =>
    simp only [SessionGroup.awaits, working]
    cases move with
    | @missed rest _ other =>
      have later : id ∈ rest := of_decide_eq_true awaited
      exact decide_eq_true (mem_cons_of_mem _ later)
    | closed => cases awaited
    | joined => exact awaited
    | _ => rfl
  | @detachSession rest _ _ working =>
    simp only [SessionGroup.awaits, working]
    have later : id ∈ rest := of_decide_eq_true awaited
    exact decide_eq_true (mem_cons_of_mem _ later)
  | beginSession working =>
    simp only [SessionGroup.awaits, working]
    exact awaited
  | finishClose | delete => cases awaited

end

end Step

/-! ## Runs -/

/-- The session is one of the group, which follows it. -/
def Manager.Follows (mgr : Manager) (group id : Nat) : Prop :=
  ∃ found member, mgr.pool[group]? = some found ∧ mgr.members[id]? = some member ∧
    member.group = group ∧ found.Follows id member

namespace Manager.Follows

variable {old current : SessionGroup} {mgr next : Manager} {action : ManagerAction}
  {group id : Nat}

theorem step (follows : mgr.Follows group id)
    (patient : mgr.overtakes action = false) (taken : mgr.step action = some next) :
    next.Follows group id := by
  have effect := ManagerEffect.of_step taken
  obtain ⟨found, member, present, located, home, tracked⟩ := follows
  obtain ⟨later, reached, groupMove⟩ := effect.pool_moves.kept group found present
  obtain ⟨after, afterLocated, memberMove⟩ := effect.member_move located
  have waits : action = .finishSessionClose id → found.awaits id = false := by
    rintro rfl
    simpa [Manager.overtakes, located, home, present] using patient
  refine ⟨later, after, reached, afterLocated, memberMove.group.trans home, ?_⟩
  refine (groupMove.follows located waits tracked).evolves ?_ memberMove.close
  intro awaited findable
  rcases memberMove.findable findable with stays | ⟨removes, _⟩
  · exact stays
  · have earlier := groupMove.awaits tracked.busy awaited
    rw [waits removes] at earlier
    cases earlier

theorem begin (sound : ManagerSound mgr) (taken : mgr.step action = some next)
    (present : mgr.pool[group]? = some old) (idle : old.gate.close.state = .idle)
    (begun : next.pool[group]? = some current) (busy : current.gate.close.state ≠ .idle)
    (inside : id ∈ old.sessions) : next.Follows group id := by
  have effect := ManagerEffect.of_step taken
  have before := sound.groups group old present idle
  obtain ⟨same, located, move⟩ := effect.pool_moves.kept group old present
  rw [begun] at located
  cases located
  cases move with
  | beginClose =>
    obtain ⟨member, located, home, parent, findable⟩ :=
      ManagerSound.present_step before taken present begun inside inside
    refine ⟨_, member, begun, located, home, busy, ?_, ?_⟩
    · intro pc working
      cases working
      exact ⟨inside, findable⟩
    · intro finished
      simp [Gate.beginClose, CloseOperation.begin_of_idle idle] at finished
  | gate close => exact absurd (close ▸ idle) busy
  | publish | remove => exact absurd idle busy
  | owner working | detachSession working | beginSession working
  | finishClose working | delete working =>
    rw [before.worker] at working
    cases working

end Manager.Follows

theorem debug_cleanup_errors_reported {before begun after : Manager} {action : ManagerAction}
    {group id : Nat} {old current final : SessionGroup}
    (reached : Reaches Manager.step .new before) (present : before.pool[group]? = some old)
    (idle : old.gate.close.state = .idle) (member : id ∈ old.sessions)
    (taken : before.step action = some begun) (begins : begun.pool[group]? = some current)
    (busy : current.gate.close.state ≠ .idle)
    (run : Run Manager.step (fun mgr own => mgr.overtakes own = false) begun after)
    (ends : after.pool[group]? = some final) (finished : final.gate.close.state = .finished) :
    ∃ s, after.members[id]? = some s ∧
      s.machine.session.close.state = .finished ∧
      s.machine.session.close.err ⊆ final.gate.close.err := by
  have followed : after.Follows group id := by
    apply run.invariant
    · exact Manager.Follows.begin (managerSound_run reached) taken present idle begins busy member
    · intro state own next held patient stepped
      exact held.step patient stepped
  obtain ⟨found, s, located, known, _, follows⟩ := followed
  rw [ends] at located
  cases located
  have joined := follows.joined finished
  exact ⟨s, known, joined.finished, joined.included⟩

/-! ## One session under a parent -/

/-- `CreateSession` for the parent 7. -/
def createSchedule : List ManagerAction :=
  [.createSession 7, .creation 0 (.ok sampleRuntime), .creation 0 (.error []),
    .creation 0 (.error [])]

/-- `CloseSession` of session 0 up to the publication of its result. -/
def closeSessionSchedule : List ManagerAction :=
  [.closeSession 0, .beginClose 0, .session 0 (.close []), .session 0 .terminate,
    .session 0 (.close []), .session 0 (.close []), .session 0 (.close []),
    .session 0 (.close [.external 5])]

/-- The owner of group 0 with the one session 0, which is removed as soon as the owner
has looked it up. -/
def ownerSchedule : List ManagerAction :=
  [.worker 0 [], .worker 0 [], .worker 0 [0], .worker 0 [], .finishSessionClose 0,
    .worker 0 [], .worker 0 [], .worker 0 [], .worker 0 []]

/-- The removal of the session overtakes the owner of its group, whose snapshot is then
empty. -/
theorem debug_cleanup_error_lost :
    ∃ before begun after, Reaches Manager.step .new before ∧
      before.pool.map (fun group => (group.gate.close.state, group.sessions)) = [(.idle, [0])] ∧
      before.step (.closeExecutionSession 7) = some begun ∧
      Reaches Manager.step begun after ∧
      after.members.map (fun member => member.machine.session.close) =
        [⟨.finished, [.external 5]⟩] ∧
      after.pool.map (fun group => group.gate.close) = [⟨.finished, []⟩] := by
  have passed :
      (execute Manager.step .new (createSchedule ++ closeSessionSchedule)).map
        (fun before => decide
          (before.pool.map (fun group => (group.gate.close.state, group.sessions)) =
              [(.idle, [0])] ∧
            ((before.step (.closeExecutionSession 7)).bind fun begun =>
              (execute Manager.step begun
                [.finishSessionClose 0, .worker 0 [], .worker 0 [], .worker 0 [],
                  .worker 0 [], .worker 0 []]).map fun after =>
                (after.members.map (fun member => member.machine.session.close),
                  after.pool.map (fun group => group.gate.close))) =
              some ([⟨.finished, [.external 5]⟩], [⟨.finished, []⟩]))) =
      some true := by
    decide
  obtain ⟨before, reached, tested⟩ := exists_reaches_of_test passed
  obtain ⟨idle, rest⟩ := of_decide_eq_true tested
  obtain ⟨begun, taken, continued⟩ := Option.bind_eq_some_iff.mp rest
  obtain ⟨after, executed, results⟩ := Option.map_eq_some_iff.mp continued
  obtain ⟨closed, groups⟩ := Prod.mk.inj results
  exact ⟨before, begun, after, reached, idle, taken, reaches_of_execute executed, closed, groups⟩

/-- The same calls with the removal after the owner's `detachSession`. -/
theorem debug_cleanup_errors_reported_patient :
    ∃ before begun after old current final s,
      Reaches Manager.step .new before ∧
      before.pool[0]? = some old ∧ old.gate.close.state = .idle ∧ 0 ∈ old.sessions ∧
      before.step (.closeExecutionSession 7) = some begun ∧
      begun.pool[0]? = some current ∧ current.gate.close.state ≠ .idle ∧
      Run Manager.step (fun mgr own => mgr.overtakes own = false) begun after ∧
      after.pool[0]? = some final ∧ final.gate.close = ⟨.finished, [.external 5]⟩ ∧
      after.members[0]? = some s ∧
      s.machine.session.close.state = .finished ∧
      s.machine.session.close.err ⊆ final.gate.close.err := by
  have passed :
      (execute Manager.step .new (createSchedule ++ closeSessionSchedule)).map
        (fun before => decide
          ((before.pool[0]?).map (fun group => (group.gate.close.state, group.sessions)) =
              some (.idle, [0]) ∧
            ((before.step (.closeExecutionSession 7)).bind fun begun =>
              (execute (guarded Manager.step fun mgr own =>
                  mgr.overtakes own = false) begun ownerSchedule).map fun after =>
                ((begun.pool[0]?).map (fun group => group.gate.close.state),
                  (after.pool[0]?).map (fun group => group.gate.close))) =
              some (some .started, some ⟨.finished, [.external 5]⟩))) =
      some true := by
    decide
  obtain ⟨before, reached, tested⟩ := exists_reaches_of_test passed
  obtain ⟨isOld, rest⟩ := of_decide_eq_true tested
  obtain ⟨old, present, oldState⟩ := Option.map_eq_some_iff.mp isOld
  obtain ⟨idle, sessions⟩ := Prod.mk.inj oldState
  obtain ⟨begun, taken, continued⟩ := Option.bind_eq_some_iff.mp rest
  obtain ⟨after, executed, results⟩ := Option.map_eq_some_iff.mp continued
  obtain ⟨isCurrent, isFinal⟩ := Prod.mk.inj results
  obtain ⟨current, begins, started⟩ := Option.map_eq_some_iff.mp isCurrent
  obtain ⟨final, ends, result⟩ := Option.map_eq_some_iff.mp isFinal
  have member : 0 ∈ old.sessions := by
    simp [sessions]
  have busy : current.gate.close.state ≠ .idle := by
    simp [started]
  have finished : final.gate.close.state = .finished := by
    rw [result]
  have run := run_of_guarded (reaches_of_execute executed)
  obtain ⟨s, located, closed, included⟩ :=
    debug_cleanup_errors_reported reached present idle member taken begins busy run ends finished
  exact ⟨before, begun, after, old, current, final, s, reached, present, idle, member,
    taken, begins, busy, run, ends, result, located, closed, included⟩

end Ferretd.Debug

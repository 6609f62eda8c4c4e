import Ferretd.Exec.ManagerMoves

/-!
# Ownership and teardown under the manager

What every run of the manager guarantees about the objects of the Universal runtime,
and about a session whose close operation has published its result.
-/

namespace Ferretd.Exec

open Library

/-! ## Runs of the manager as runs of a session -/

variable {mgr later : Manager} {sid plan hooks : Nat} {member : Member}
  {materialize : Nat → GoError → RuntimeFailure}

theorem Manager.member_run {holds : SessionMachine → Prop} (sound : ManagerSound mgr)
    (run : Reaches Manager.step mgr later)
    (located : mgr.sessions[sid]? = some member) (initially : holds member.machine)
    (preserved : ∀ m action next, SessionSound m → holds m →
      m.step action = some next → holds next) :
    ∃ final, later.sessions[sid]? = some final ∧ final.group = member.group ∧
      holds final.machine := by
  have both : ManagerSound later ∧ ∃ final, later.sessions[sid]? = some final ∧
      final.group = member.group ∧ holds final.machine := by
    apply run.invariant
    · exact ⟨sound, member, located, rfl, initially⟩
    intro state action next invariant _ taken
    obtain ⟨stateSound, current, present, home, held⟩ := invariant
    obtain ⟨final, reached, sameGroup, moved⟩ :=
      ((ManagerEffect.of_step taken).sessions_move stateSound).member_step present
    refine ⟨stateSound.step taken, final, reached, sameGroup.trans home, ?_⟩
    rcases moved with same | ⟨own, advanced⟩
    · rw [same]
      exact held
    · exact preserved _ own _ (stateSound.members sid current present).1 held advanced
  exact both.2

/-! ## The objects of the Universal runtime -/

/-- How often and when the objects handed out for a session are closed. -/
structure Disposal (m : SessionMachine) : Prop where
  planOnce : ∀ plan, m.core.objects.planCloses plan ≤ 1
  normalPlan :
    m.entry ≠ none → m.core.objects.planCloses 0 ≠ 0 →
      ∀ (id : Nat) (entry : ExecutionEntry), m.executions[id]? = some entry →
        entry.machine.execution.state.terminal = true ∧
          entry.machine.closes = entry.machine.opened
  debugPlan :
    ∀ plan, m.core.objects.planCloses plan ≠ 0 →
      (∀ debug ∈ m.core.debugs,
        debug.runtime.target.plan = some plan → debug.released = true) ∧
      ∀ creation ∈ m.creators, creation.pc.target ≠ some plan
  lease : ∀ debug ∈ m.core.debugs, debug.released = true → debug.runtime.closeOnce = .done
  universal :
    ∀ (id : Nat) (entry : ExecutionEntry), m.executions[id]? = some entry →
      entry.machine.closes ≤ 1 ∧
        (entry.machine.execution.state.terminal = true →
          entry.machine.closes = entry.machine.opened)
  debugger :
    ∀ dbg, m.core.objects.debuggerCloses dbg ≤ 1 ∧
      (dbg < m.core.objects.debuggers →
        m.core.objects.debuggerCloses dbg = 1 ∨
          (∃ debug ∈ m.core.debugs, debug.runtime.session = some dbg ∧
            debug.runtime.closeOnce = .idle) ∨
          ∃ creation ∈ m.creators, ∃ plan err,
            creation.pc = .closeDebugger plan dbg err)
  finished :
    m.gate.close.state = .finished →
      (∀ plan < m.core.objects.plans, m.core.objects.planCloses plan = 1) ∧
      ∀ dbg < m.core.objects.debuggers,
        m.core.objects.debuggerCloses dbg = 1

namespace SessionSound

section

variable {m : SessionMachine} {dbg : Nat} (sound : SessionSound m)
include sound

/-- An open debugger session is held by a debug runtime that has not been closed, or
by the creation that failed to hand it over. -/
theorem debugger_open (returned : dbg < m.core.objects.debuggers)
    (isOpen : m.core.objects.debuggerCloses dbg = 0) :
    (∃ debug ∈ m.core.debugs, debug.runtime.session = some dbg ∧
        debug.runtime.closeOnce = .idle) ∨
      ∃ creation ∈ m.creators, ∃ plan err,
        creation.pc = .closeDebugger plan dbg err := by
  have balance := sound.ledger.debuggers dbg
  simp only [SessionMachine.debuggerHeld, handed, if_pos returned, isOpen] at balance
  by_cases held : tally (DebugRuntime.holdsDebugger dbg) m.core.debugs = 0
  · right
    obtain ⟨creation, member, weight⟩ : ∃ creation ∈ m.creators,
        creation.pc.holdsDebugger dbg ≠ 0 :=
      exists_of_tally_ne_zero (by omega)
    refine ⟨creation, member, ?_⟩
    cases point : creation.pc with
    | closeDebugger plan _ err =>
      simp only [point, CreatePC.holdsDebugger, holds] at weight
      split at weight
      next same =>
        cases same
        exact ⟨plan, err, rfl⟩
      · exact absurd rfl weight
    | _ => simp [point, CreatePC.holdsDebugger] at weight
  · left
    obtain ⟨debug, member, weight⟩ := exists_of_tally_ne_zero held
    refine ⟨debug, member, ?_⟩
    simp only [DebugRuntime.holdsDebugger, holds] at weight
    split at weight
    next idle =>
      split at weight
      next same => exact ⟨same, idle⟩
      · exact absurd rfl weight
    · exact absurd rfl weight

theorem disposal : Disposal m where
  planOnce := sound.planCloses_le_one
  normalPlan := by
    intro published closed id entry found
    have settled := sound.executions_settled published closed found
    have terminal := sound.terminal_of_finished found settled
    have machineSound := (sound.children.sound id entry found).machine
    exact ⟨terminal, (machineSound.closed_of_terminal terminal).1.symm⟩
  debugPlan := by
    intro plan closed
    exact ⟨fun debug member target => sound.released_of_closed closed member target,
      fun creation member => sound.not_leased_of_closed closed member⟩
  lease := fun debug member => (sound.ledger.debugs debug member).released
  universal := by
    intro id entry found
    have machineSound := (sound.children.sound id entry found).machine
    exact ⟨machineSound.closes_le_one,
      fun terminal => (machineSound.closed_of_terminal terminal).1.symm⟩
  debugger := by
    intro dbg
    have once := sound.debuggerCloses_le_one dbg
    refine ⟨once, fun returned => ?_⟩
    by_cases isOpen : m.core.objects.debuggerCloses dbg = 0
    · exact Or.inr (sound.debugger_open returned isOpen)
    · left
      omega
  finished := by
    intro finished
    exact ⟨fun plan returned => sound.plan_closed finished returned,
      fun dbg returned => sound.debugger_closed finished returned⟩

theorem plan_of_unpublished (unpublished : m.entry = none) (returned : plan < m.core.objects.plans)
    (isOpen : m.core.objects.planCloses plan = 0) :
    m.core.session.plan ≠ none := by
  obtain ⟨idle, creators, _, _, debugPlan⟩ := sound.ownership.unpublished unpublished
  have owner : m.workerHolds plan = 0 := by
    simp [SessionMachine.workerHolds, sound.ownership.idle idle]
  have balance := sound.ledger.plans plan
  intro none
  simp [SessionMachine.planHeld, Session.holdsPlan, none, debugPlan, creators, owner,
    handed, returned, isOpen] at balance

end

end SessionSound

/-- Every close operation that a worker has been started for has finished. -/
def Manager.Quiet (mgr : Manager) : Prop :=
  (∀ (group : Nat) (found : WorkspaceGroup), mgr.pool[group]? = some found →
    found.gate.close.state ≠ .started) ∧
  ∀ (sid : Nat) (member : Member), mgr.sessions[sid]? = some member →
    member.machine.gate.close.state ≠ .started

/-- A Plan that is open while no close worker is running belongs to a session that is
active, or to a `CreateSession` in flight; after `Manager.Close` there is neither. -/
theorem ManagerSound.plan_open (sound : ManagerSound mgr) (quiet : mgr.Quiet)
    (located : mgr.sessions[sid]? = some member)
    (returned : plan < member.machine.core.objects.plans)
    (isOpen : member.machine.core.objects.planCloses plan = 0) :
    mgr.closed = false ∧ member.machine.gate.close.state = .idle ∧
      (member.machine.entry = some ⟨.active, true⟩ ∨
        member.machine.entry = none ∧
          ∃ found, mgr.pool[member.group]? = some found ∧
            ∃ pc ∈ found.creations, pc.session = some sid) := by
  have machineSound := (sound.members sid member located).1
  have idle : member.machine.gate.close.state = .idle := by
    cases state : member.machine.gate.close.state with
    | idle => rfl
    | started => exact absurd state (quiet.2 sid member located)
    | finished =>
      have closed := machineSound.plan_closed state returned
      omega
  -- A live group whose close has not begun, or is over, is not that of a closed manager.
  have dead : ∀ found, mgr.pool[member.group]? = some found →
      mgr.closed = true → found.creations = [] ∧ (sid ∉ found.sessions) := by
    intro found present closed
    have groupSound := sound.groups member.group found present
    cases state : found.gate.close.state with
    | idle =>
      obtain ⟨creations, sessions⟩ := sound.shut closed member.group found present state
      exact ⟨creations, by simp [sessions]⟩
    | started => exact absurd state (quiet.1 member.group found present)
    | finished =>
      refine ⟨groupSound.creations_of_finished state, fun inside => ?_⟩
      obtain ⟨same, known, finished, _⟩ :=
        (sound.joining member.group found present).finished state sid inside
      rw [located] at known
      cases known
      cases idle.symm.trans finished
  cases known : member.machine.entry with
  | none =>
    have planned := machineSound.plan_of_unpublished known returned isOpen
    obtain ⟨found, present, pc, pcMember, holds⟩ :=
      sound.held sid member located known planned
    refine ⟨?_, idle, Or.inr ⟨rfl, found, present, pc, pcMember, holds⟩⟩
    by_contra closed
    have none := (dead found present (by simpa using closed)).1
    simp [none] at pcMember
  | some entry =>
    have active := (machineSound.ownership.entry entry known).2 idle
    have isListed : entry.listed = true := by
      cases unlisted : entry.listed with
      | true => rfl
      | false =>
        have finished := machineSound.ownership.listed entry known unlisted
        cases idle.symm.trans finished
    obtain ⟨found, present, inside⟩ :=
      sound.listed sid member entry located known isListed
    refine ⟨?_, idle, Or.inl ?_⟩
    · by_contra closed
      exact (dead found present (by simpa using closed)).2 inside
    · obtain ⟨state, listed⟩ := entry
      dsimp only at active isListed
      rw [active, isListed]

/-- Every object of the Universal runtime is disposed of as its owners promise, and
once the committed close workers have finished only active sessions and creations in
flight hold open Plans; after `Manager.Close` nothing does. -/
structure Disposes (mgr : Manager) : Prop where
  sessions :
    ∀ (sid : Nat) (member : Member), mgr.sessions[sid]? = some member →
      Disposal member.machine
  settled :
    mgr.Quiet →
      ∀ (sid : Nat) (member : Member), mgr.sessions[sid]? = some member →
        ∀ plan < member.machine.core.objects.plans,
          member.machine.core.objects.planCloses plan = 1 ∨
            mgr.closed = false ∧ member.machine.gate.close.state = .idle ∧
              (member.machine.entry = some ⟨.active, true⟩ ∨
                member.machine.entry = none ∧
                  ∃ found, mgr.pool[member.group]? = some found ∧
                    ∃ pc ∈ found.creations, pc.session = some sid)
  shutdown :
    mgr.closed = true → mgr.Quiet →
      ∀ (sid : Nat) (member : Member), mgr.sessions[sid]? = some member →
        ∀ plan < member.machine.core.objects.plans,
          member.machine.core.objects.planCloses plan = 1

theorem manager_disposes (reached : Reaches Manager.step (.new hooks materialize) mgr) :
    Disposes mgr := by
  have sound := managerSound_run reached
  have settled : mgr.Quiet →
      ∀ (sid : Nat) (member : Member), mgr.sessions[sid]? = some member →
        ∀ plan < member.machine.core.objects.plans,
          member.machine.core.objects.planCloses plan = 1 ∨
            mgr.closed = false ∧ member.machine.gate.close.state = .idle ∧
              (member.machine.entry = some ⟨.active, true⟩ ∨
                member.machine.entry = none ∧
                  ∃ found, mgr.pool[member.group]? = some found ∧
                    ∃ pc ∈ found.creations, pc.session = some sid) := by
    intro quiet sid member located plan returned
    have once := (sound.members sid member located).1.planCloses_le_one plan
    by_cases isOpen : member.machine.core.objects.planCloses plan = 0
    · exact Or.inr (sound.plan_open quiet located returned isOpen)
    · left
      omega
  refine ⟨?_, settled, ?_⟩
  · intro sid member located
    exact (sound.members sid member located).1.disposal
  intro closed quiet sid member located plan returned
  rcases settled quiet sid member located plan returned with once | ⟨isOpen, _⟩
  · exact once
  · rw [closed] at isOpen
    cases isOpen

/-- `CreateSession` for workspace 3, a debug runtime and a running Execution. -/
def populateSchedule : List ManagerAction :=
  [.createSession 3, .creation 0 0 .quiet, .creation 0 0 (.returning 0),
    .creation 0 0 (.returning 0), .creation 0 0 .quiet, .creation 0 0 .quiet,
    .creation 0 0 .quiet, .creation 0 0 .quiet, .creation 0 0 .quiet,
    .createRuntime 0 true ⟨[], ⟨"application/json", ""⟩⟩,
    .session 0 (.create 0 .quiet), .session 0 (.create 0 (.returning 0)),
    .session 0 (.create 0 .quiet), .session 0 (.create 0 (.returning 0)),
    .session 0 (.create 0 .quiet),
    .createRuntime 0 false ⟨[], ⟨"application/json", ""⟩⟩,
    .session 0 (.create 0 .quiet), .session 0 (.create 0 .quiet),
    .session 0 (.execution 0 (.start []))]

/-- Steps of the owner of the first session's close operation. -/
def ownerSteps (count : Nat) : List ManagerAction :=
  List.replicate count (.session 0 (.close .quiet []))

/-- `Manager.Close` of that population, to the end of all its workers; the Execution's
Universal session fails to close. -/
def shutdownSchedule : List ManagerAction :=
  [.close, .worker 0 [], .worker 0 [], .worker 0 [0], .worker 0 []] ++ ownerSteps 2 ++
    [.session 0 (.close .quiet [0]),
      .session 0 (.execution 0 (.run 0 (.returning 7))),
      .session 0 (.execution 0 (.run 0 .quiet)),
      .session 0 (.execution 0 (.run 0 .quiet)),
      .session 0 (.execution 0 (.run 0 (.failing [.external 5]))),
      .session 0 (.execution 0 (.run 0 .quiet))] ++
    List.replicate 5 (.session 0 (.settleExecution 0 .quiet)) ++
    [.session 0 (.removeExecution 0)] ++ ownerSteps 3 ++
    [.session 0 (.beginDebugClose 0)] ++
    List.replicate 4 (.session 0 (.debugClose 0 0 .quiet)) ++ ownerSteps 10 ++
    [.worker 0 [], .worker 0 [], .worker 0 []]

theorem manager_disposes_shutdown :
    ∃ mgr, Reaches Manager.step (.new 1 fun _ _ => ⟨"failed", []⟩) mgr ∧
      (mgr.closed = true ∧ mgr.sessions.map (fun member =>
          (member.machine.core.objects.plans, member.machine.core.objects.planCloses 0,
            member.machine.core.objects.planCloses 1)) = [(2, 1, 1)]) ∧
      Disposes mgr := by
  have passed :
      (execute Manager.step (.new 1 fun _ _ => ⟨"failed", []⟩)
        (populateSchedule ++ shutdownSchedule)).map
        (fun mgr => decide (mgr.closed = true ∧ mgr.sessions.map (fun member =>
            (member.machine.core.objects.plans,
              member.machine.core.objects.planCloses 0,
              member.machine.core.objects.planCloses 1)) = [(2, 1, 1)])) =
      some true := by
    decide
  obtain ⟨mgr, reached, shut⟩ := exists_reaches_of_test passed
  exact ⟨mgr, reached, of_decide_eq_true shut, manager_disposes reached⟩

/-! ## A session after its teardown -/

/-- Nothing of a session is left running, and nothing can be added to it. -/
structure TornDown (mgr : Manager) (sid : Nat) (member : Member) : Prop where
  executions :
    ∀ (id : Nat) (entry : ExecutionEntry),
      member.machine.executions[id]? = some entry →
        entry.machine.execution.state.terminal = true ∧
          entry.machine.execution.close.state = .finished
  lookup : ∀ id, member.machine.activeExecution id = none
  debugs :
    ∀ debug ∈ member.machine.core.debugs, debug.runtime.closeOnce = .done ∧ debug.released = true
  debuggers :
    ∀ dbg < member.machine.core.objects.debuggers,
      member.machine.core.objects.debuggerCloses dbg = 1
  rejects :
    mgr.runtimeCreateError sid ≠ [] ∧
      ∀ debug input, mgr.step (.createRuntime sid debug input) = some mgr

theorem ManagerSound.tornDown (sound : ManagerSound mgr)
    (located : mgr.sessions[sid]? = some member)
    (finished : member.machine.gate.close.state = .finished) :
    TornDown mgr sid member := by
  have machineSound := (sound.members sid member located).1
  have busy : member.machine.gate.close.state ≠ .idle := by simp [finished]
  refine ⟨?_, ?_, ?_, ?_, ?_, ?_⟩
  · intro id entry found
    have settled := machineSound.execution_finished finished found
    exact ⟨machineSound.terminal_of_finished found settled, settled⟩
  · intro id
    unfold SessionMachine.activeExecution
    split
    · split
      next execution removed found =>
        have settled := machineSound.execution_finished finished found
        have idle := (machineSound.children.sound id _ found).active.1 rfl
        cases idle.symm.trans settled
      · rfl
    · rfl
  · intro debug present
    have released := machineSound.debug_released finished present
    exact ⟨(machineSound.ledger.debugs debug present).released released, released⟩
  · intro dbg returned
    exact machineSound.debugger_closed finished returned
  · have inactive : member.machine.active = false := by
      unfold SessionMachine.active
      simp only [decide_eq_false_iff_not]
      intro active
      exact busy ((machineSound.ownership.entry _ active).1 rfl)
    unfold Manager.runtimeCreateError
    split
    · simp
    · simp [located, inactive]
  · intro debug input
    have rejected := machineSound.rejects busy debug input mgr.closed
    simp only [Manager.step, Manager.stepSession, located, rejected, Option.map_some,
      Manager.setSession]
    obtain ⟨inside, rfl⟩ := List.getElem?_eq_some_iff.mp located
    rw [List.set_getElem_self inside]

theorem session_tornDown (reached : Reaches Manager.step (.new hooks materialize) mgr)
    (located : mgr.sessions[sid]? = some member)
    (finished : member.machine.gate.close.state = .finished)
    (run : Reaches Manager.step mgr later) :
    ∃ final, later.sessions[sid]? = some final ∧ TornDown later sid final := by
  have sound := managerSound_run reached
  have stays : ∀ m action next, SessionSound m →
      m.gate.close.state = .finished →
        SessionMachine.step m action = some next →
          next.gate.close.state = .finished := by
    intro m action next machineSound done taken
    have same := (machineSound.gate_evolves taken).close.finished done
    rw [same]
    exact done
  obtain ⟨final, present, _, done⟩ :=
    Manager.member_run sound run located finished stays
  exact ⟨final, present, (managerSound_run (reached.trans run)).tornDown present done⟩

theorem session_tornDown_shutdown :
    ∃ mgr member, Reaches Manager.step (.new 1 fun _ _ => ⟨"failed", []⟩) mgr ∧
      mgr.sessions[0]? = some member ∧
      member.machine.gate.close.state = .finished ∧
      ∃ final, mgr.sessions[0]? = some final ∧ TornDown mgr 0 final := by
  have passed :
      (execute Manager.step (.new 1 fun _ _ => ⟨"failed", []⟩)
        (populateSchedule ++ shutdownSchedule)).map
        (fun mgr => decide (mgr.sessions[0]?.map (fun member =>
          member.machine.gate.close.state) = some .finished)) =
      some true := by
    decide
  obtain ⟨mgr, reached, settled⟩ := exists_reaches_of_test passed
  obtain ⟨member, located, finished⟩ :=
    Option.map_eq_some_iff.mp (of_decide_eq_true settled)
  exact ⟨mgr, member, reached, located, finished,
    session_tornDown reached located finished Run.start⟩

end Ferretd.Exec

import Ferretd.Exec.ManagerTeardown

/-!
# Panics and debug Plans

The calls of the manager keep the protocol of the gates and registries, whose violation is
a panic, and the debug Plan of a session is compiled by one call for all.
-/

namespace Ferretd

/-- No user of a gate panics: a creator that leaves it, the owner of the close operation
that waits for the creators, and the owner that publishes a result. -/
structure Gate.Obeyed (gate : Gate) (creators : Nat) (waits finishes : Prop) : Prop where
  ends : creators ≠ 0 → ∃ ended, gate.endCreate = .ok ended
  waits : waits → ∃ captured, gate.waitForCreates = .ok captured
  finishes : finishes → ∀ err, ∃ closed, gate.finishClose err = .ok closed

theorem Gate.obeyed {creators : Nat} {waits finishes : Prop}
    {gate : Gate} (counted : gate.creating = creators) (waiting : waits → gate.close.state ≠ .idle)
    (finishing : finishes → gate.close.state = .started ∧ creators = 0) :
    gate.Obeyed creators waits finishes where
  ends inside := by
    unfold endCreate
    rw [if_neg (counted ▸ inside)]
    split <;> exact ⟨_, rfl⟩
  waits isWaiting := ⟨_, if_pos (by simpa using waiting isWaiting)⟩
  finishes isLast err := by
    obtain ⟨started, none⟩ := finishing isLast
    unfold finishClose
    rw [if_neg (by omega), CloseOperation.finish_of_started err started]
    exact ⟨_, rfl⟩

namespace Exec

open Library

/-- The calls on a published session and its registry do not panic. -/
structure SessionMachine.Obeyed (m : SessionMachine) : Prop where
  gate : m.gate.Obeyed m.creators.length (m.worker = some .waitForCreates)
    (∃ result, m.worker = some (.finishClose result))
  admits : m.active = true → m.gate.beginCreate.1 = true
  adds : ∀ creation ∈ m.creators, creation.pc = .addExecution →
    ∃ registry, m.registry.add m.executions.length = .ok registry
  closes : ∀ entry, m.entry = some entry → entry.state = .active →
    m.gate.beginClose.1 = true
  executions : ∀ (id : Nat) (entry : ExecutionEntry), m.executions[id]? = some entry →
    (∃ begun, entry.beginCloseLocked = .ok begun) ∧
      (entry.machine.closer ≠ none → ∀ err, ∃ closed,
        entry.machine.execution.completeClose err = .ok closed)

variable {m : Exec.SessionMachine} {group : Exec.WorkspaceGroup} {hooks : Nat}
  {materialize : Nat → GoError → RuntimeFailure} {mgr : Manager}

theorem SessionSound.obeyed (sound : SessionSound m) : m.Obeyed where
  gate := by
    refine Gate.obeyed sound.ledger.creating ?_ ?_
    · intro waiting idle
      rw [sound.ownership.idle idle] at waiting
      cases waiting
    · rintro ⟨result, last⟩
      have none := sound.quiesced.done
        (SessionMachine.passed_of_worker last SessionClosePC.createsDone)
      refine ⟨?_, by rw [none]; rfl⟩
      cases state : m.gate.close.state with
      | idle => simp [sound.ownership.idle state] at last
      | started => rfl
      | finished => simpa [last] using sound.ownership.finished state
  admits active := by
    have entry := of_decide_eq_true active
    exact (Gate.beginCreate_of_accepting ((sound.ownership.entry _ entry).mp rfl)).1
  adds creation member _ := by
    refine ExecutionRegistry.add_of_fresh (sound.children.isOpen ?_)
      fun present => Nat.lt_irrefl _ (sound.enumerated _ present)
    by_contra passed
    have done := SessionMachine.passed_mono SessionClosePC.createsDone_of_collected
      (by simpa using passed)
    rw [sound.quiesced.done done] at member
    cases member
  closes entry present active := by
    rw [Gate.beginClose_of_accepting ((sound.ownership.entry entry present).mp active)]
  executions id entry found := by
    have child := sound.children.sound id entry found
    constructor
    · unfold ExecutionEntry.beginCloseLocked
      split
      · exact ⟨_, rfl⟩
      next isOpen =>
        have idle := child.active.mp (by cases state : entry.state <;> simp_all)
        exact ⟨_, if_pos (congrArg Prod.fst (CloseOperation.begin_of_idle idle))⟩
    · intro owned err
      have started := of_not_not (mt child.machine.teardown.owner.mpr owned)
      unfold Execution.completeClose
      rw [CloseOperation.finish_of_started err started]
      exact ⟨_, rfl⟩

theorem GroupSound.obeyed (sound : GroupSound group) :
    group.gate.Obeyed group.creations.length (group.worker = some .waitForCreates)
      (∃ result, group.worker = some (.finishClose result)) := by
  refine Gate.obeyed sound.creating ?_ ?_
  · intro waiting idle
    rw [sound.idle idle] at waiting
    cases waiting
  · rintro ⟨result, last⟩
    refine ⟨?_, by rw [sound.done _ last rfl]; rfl⟩
    cases state : group.gate.close.state with
    | idle => simp [sound.idle state] at last
    | started => rfl
    | finished => simp [sound.finished state] at last

theorem manager_obeys_gates (reached : Reaches Manager.step (.new hooks materialize) mgr) :
    (∀ (group : Nat) (found : WorkspaceGroup), mgr.pool[group]? = some found →
      found.gate.Obeyed found.creations.length (found.worker = some .waitForCreates)
        (∃ result, found.worker = some (.finishClose result))) ∧
    ∀ (sid : Nat) (member : Member), mgr.sessions[sid]? = some member →
      member.machine.Obeyed := by
  have sound := managerSound_run reached
  exact ⟨fun group found present => (sound.groups group found present).obeyed,
    fun sid member located => (sound.members sid member located).1.obeyed⟩

theorem manager_obeys_gates_populated :
    ∃ mgr, Reaches Manager.step (.new 1 fun _ _ => ⟨"failed", []⟩) mgr ∧
      mgr.sessions.length = 1 ∧ ∀ (sid : Nat) (member : Member),
        mgr.sessions[sid]? = some member → member.machine.Obeyed := by
  have passed : (execute Manager.step (.new 1 fun _ _ => ⟨"failed", []⟩) populateSchedule).map
      (fun mgr => decide (mgr.sessions.length = 1)) = some true := by decide
  obtain ⟨mgr, reached, populated⟩ := exists_reaches_of_test passed
  exact ⟨mgr, reached, of_decide_eq_true populated, (manager_obeys_gates reached).2⟩

/-- One call compiles the debug Plan for all, and every lease is on the installed Plan. -/
structure SessionMachine.SharesPlan (m : SessionMachine) : Prop where
  single : tally (fun creation => creation.pc.compiling) m.creators ≤ 1
  uncompiled : m.core.session.debugPlan ≠ none →
    tally (fun creation => creation.pc.compiling) m.creators = 0
  leases : m.core.session.debugRuntimes =
    tally (fun creation => creation.pc.leased) m.creators +
      tally DebugRuntime.leased m.core.debugs
  creators : ∀ creation ∈ m.creators, ∀ plan, creation.pc.target = some plan →
    m.core.session.debugPlan = some plan
  debugs : ∀ debug ∈ m.core.debugs, debug.released = false → ∃ plan,
    debug.runtime.target.plan = some plan ∧ m.core.session.debugPlan = some plan

theorem debugPlan_shared {sid : Nat} {member : Member}
    (reached : Reaches Manager.step (.new hooks materialize) mgr)
    (located : mgr.sessions[sid]? = some member) : member.machine.SharesPlan := by
  obtain ⟨ledger, -, -, -, targets, -⟩ := ((managerSound_run reached).members _ _ located).1
  refine ⟨?_, ?_, ledger.leases, targets.creators, targets.debugs⟩
  · rw [ledger.compiling]
    unfold Session.compiling
    split <;> omega
  · intro installed
    rw [ledger.compiling]
    exact if_neg fun compiling => installed (ledger.compilation.uncompiled compiling)

theorem debugPlan_shared_leased :
    ∃ mgr member, Reaches Manager.step (.new 1 fun _ _ => ⟨"failed", []⟩) mgr ∧
      mgr.sessions[0]? = some member ∧ member.machine.core.session.debugRuntimes = 1 ∧
      member.machine.SharesPlan := by
  have passed : (execute Manager.step (.new 1 fun _ _ => ⟨"failed", []⟩) populateSchedule).map
      (fun mgr => mgr.sessions[0]?.any fun member =>
        member.machine.core.session.debugRuntimes = 1) = some true := by decide
  obtain ⟨mgr, reached, leased⟩ := exists_reaches_of_test passed
  obtain ⟨member, located, leased⟩ := Option.any_eq_true _ _ |>.mp leased
  exact ⟨mgr, member, reached, located, of_decide_eq_true leased,
    debugPlan_shared reached located⟩

end Exec

end Ferretd

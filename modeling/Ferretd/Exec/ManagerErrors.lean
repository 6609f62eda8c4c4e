import Ferretd.Exec.ManagerTeardown

/-!
# Cleanup errors under the manager

The result of an Execution or a session that is registered when its parent begins to close
is part of the parent's result: the sessions of a group are frozen from the moment its
close operation begins.
-/

namespace Ferretd.Exec

open Library

/-! ## The sessions of a closing group -/

/-- The group is closing and retains every published session that was admitted to it,
apart from the spared ones. -/
def Retains (spared : Nat → Prop) (group : Nat) (mgr : Manager) : Prop :=
  ∃ found, mgr.pool[group]? = some found ∧ found.gate.close.state ≠ .idle ∧
    ∀ (sid : Nat) (member : Member), mgr.sessions[sid]? = some member →
      member.group = group → member.machine.entry ≠ none → ¬spared sid →
        sid ∈ found.sessions

/-- `sessionRegistry.finishClose` has run for the session. -/
def Manager.Removed (mgr : Manager) (sid : Nat) : Prop :=
  ∃ member entry, mgr.sessions[sid]? = some member ∧
    member.machine.entry = some entry ∧ entry.listed = false

variable {found final : WorkspaceGroup}

namespace Retains

variable {mgr next : Manager} {action : ManagerAction} {group : Nat} {spared : Nat → Prop}

/-- When the close operation begins, every session that is still registered is in
the group. -/
theorem begin (sound : ManagerSound mgr) (taken : mgr.step action = some next)
    (present : next.pool[group]? = some found) (busy : found.gate.close.state ≠ .idle) :
    Retains mgr.Removed group next := by
  have effect := ManagerEffect.of_step taken
  refine ⟨found, present, busy, ?_⟩
  intro sid later located home published unspared
  rcases (effect.sessions_move sound).published located published with
    ⟨member, earlier, sameGroup, known⟩ | ⟨accepting, acceptingPresent, idle, _⟩
  · obtain ⟨entry, isEntry⟩ := Option.ne_none_iff_exists'.mp known
    have isListed : entry.listed = true := by
      by_contra unlisted
      exact unspared ⟨member, entry, earlier, isEntry, by simpa using unlisted⟩
    obtain ⟨before, beforePresent, inside⟩ :=
      sound.listed sid member entry earlier isEntry isListed
    rw [sameGroup, home] at beforePresent
    obtain ⟨same, samePresent, moves⟩ :=
      effect.pool_moves.kept group before beforePresent
    rw [present] at samePresent
    cases samePresent
    rw [moves.sessions busy]
    exact inside
  · rw [home, present] at acceptingPresent
    cases acceptingPresent
    exact absurd idle busy

theorem step (retains : Retains spared group mgr)
    (sound : ManagerSound mgr) (taken : mgr.step action = some next) :
    Retains spared group next := by
  have effect := ManagerEffect.of_step taken
  obtain ⟨found, present, busy, inside⟩ := retains
  obtain ⟨later, laterPresent, moves⟩ := effect.pool_moves.kept group found present
  have stillBusy := moves.close.started busy
  refine ⟨later, laterPresent, stillBusy, ?_⟩
  intro sid member located home published unspared
  rw [moves.sessions stillBusy]
  rcases (effect.sessions_move sound).published located published with
    ⟨before, earlier, sameGroup, known⟩ | ⟨accepting, acceptingPresent, idle, _⟩
  · exact inside sid before earlier (sameGroup.trans home) known unspared
  · rw [home, laterPresent] at acceptingPresent
    cases acceptingPresent
    exact absurd idle stillBusy

end Retains

/-! ## The results of the close operations -/

/-- `begun` is one step after `before`, and `after` is any later state.  The close
operations that the step begins hold the results of their children once they have
finished, and all waiters on a close operation agree. -/
structure ErrorsReported (before begun after : Manager) : Prop where
  executions :
    ∀ (sid : Nat) (old current final : Member),
      before.sessions[sid]? = some old → begun.sessions[sid]? = some current →
        after.sessions[sid]? = some final →
        old.machine.gate.close.state = .idle → current.machine.gate.close.state ≠ .idle →
        final.machine.gate.close.state = .finished →
        ∀ (id : Nat) (entry : ExecutionEntry), final.machine.executions[id]? = some entry →
          (¬∃ known, old.machine.executions[id]? = some known ∧ known.removed = true) →
            entry.JoinedInto final.machine.gate.close.err
  sessions :
    ∀ (group : Nat) (current final : WorkspaceGroup),
      (∀ old, before.pool[group]? = some old → old.gate.close.state = .idle) →
        begun.pool[group]? = some current → current.gate.close.state ≠ .idle →
        after.pool[group]? = some final → final.gate.close.state = .finished →
        ∀ (sid : Nat) (member : Member), after.sessions[sid]? = some member →
          member.group = group → member.machine.entry ≠ none → ¬before.Removed sid →
            member.machine.gate.close.state = .finished ∧
              member.machine.gate.close.err ⊆ final.gate.close.err
  executionWaiters :
    ∀ (sid id : Nat) (current final : Member) (entry later : ExecutionEntry),
      begun.sessions[sid]? = some current → after.sessions[sid]? = some final →
        current.machine.executions[id]? = some entry →
        final.machine.executions[id]? = some later →
          entry.machine.execution.close.Agrees later.machine.execution.close
  sessionWaiters :
    ∀ (sid : Nat) (current final : Member),
      begun.sessions[sid]? = some current → after.sessions[sid]? = some final →
        current.machine.gate.close.Agrees final.machine.gate.close
  workspaceWaiters :
    ∀ (group : Nat) (current final : WorkspaceGroup),
      begun.pool[group]? = some current → after.pool[group]? = some final →
        current.gate.close.Agrees final.gate.close

theorem Manager.group_run {mgr later : Manager} {group : Nat} (run : Reaches Manager.step mgr later)
    (present : mgr.pool[group]? = some found) (reached : later.pool[group]? = some final) :
    found.gate.close.Evolves final.gate.close := by
  have evolves : ∃ last, later.pool[group]? = some last ∧
      found.gate.close.Evolves last.gate.close := by
    apply run.invariant
    · exact ⟨found, present, .refl _⟩
    intro state action next held _ taken
    obtain ⟨current, located, soFar⟩ := held
    obtain ⟨last, laterPresent, moves⟩ :=
      (ManagerEffect.of_step taken).pool_moves.kept group current located
    exact ⟨last, laterPresent, soFar.trans moves.close⟩
  obtain ⟨last, laterPresent, forward⟩ := evolves
  rw [reached] at laterPresent
  cases laterPresent
  exact forward

namespace ManagerSound

section

variable {before begun after : Manager} {action : ManagerAction} {sid : Nat}
  {member : Member} (sound : ManagerSound before) (taken : before.step action = some begun)
  (run : Reaches Manager.step begun after)
include sound taken run

/-- The result of a session that begins to close holds the close error of every
Execution that is then, or later, in its registry. -/
theorem executions_reported {old current final : Member}
    (oldLocated : before.sessions[sid]? = some old) (located : begun.sessions[sid]? = some current)
    (reached : after.sessions[sid]? = some final) (idle : old.machine.gate.close.state = .idle)
    (busy : current.machine.gate.close.state ≠ .idle) :
    Collecting
      (fun id => ∃ known, old.machine.executions[id]? = some known ∧ known.removed = true)
      final.machine := by
  have oldSound := (sound.members sid old oldLocated).1
  obtain ⟨same, samePresent, _, moved⟩ :=
    ((ManagerEffect.of_step taken).sessions_move sound).member_step oldLocated
  rw [located] at samePresent
  cases samePresent
  have begins : Collecting
      (fun id => ∃ known, old.machine.executions[id]? = some known ∧ known.removed = true)
      current.machine := by
    rcases moved with unchanged | ⟨own, stepped⟩
    · rw [unchanged] at busy
      exact absurd idle busy
    · exact Collecting.of_step oldSound stepped idle busy
  obtain ⟨last, laterPresent, _, collecting⟩ :=
    Manager.member_run (sound.step taken) run located begins
      fun m own next machineSound held stepped => held.step machineSound stepped
  rw [reached] at laterPresent
  cases laterPresent
  exact collecting

theorem sessions_reported {group : Nat} {current : WorkspaceGroup}
    (present : begun.pool[group]? = some current) (busy : current.gate.close.state ≠ .idle)
    (reached : after.pool[group]? = some final) (finished : final.gate.close.state = .finished)
    (located : after.sessions[sid]? = some member) (home : member.group = group)
    (published : member.machine.entry ≠ none) (registered : ¬before.Removed sid) :
    member.machine.gate.close.state = .finished ∧
      member.machine.gate.close.err ⊆ final.gate.close.err := by
  have both : ManagerSound after ∧ Retains before.Removed group after := by
    apply run.invariant
    · exact ⟨sound.step taken, Retains.begin sound taken present busy⟩
    · intro state own next held _ stepped
      exact ⟨held.1.step stepped, held.2.step held.1 stepped⟩
  obtain ⟨afterSound, same, samePresent, _, retained⟩ := both
  rw [reached] at samePresent
  cases samePresent
  have inside := retained sid member located home published registered
  obtain ⟨joined, known, closed, included⟩ :=
    (afterSound.joining group final reached).finished finished sid inside
  rw [located] at known
  cases known
  exact ⟨closed, included⟩

end

end ManagerSound

theorem cleanup_errors_reported {hooks : Nat} {materialize : Nat → GoError → RuntimeFailure}
    {before begun after : Manager} {action : ManagerAction}
    (reached : Reaches Manager.step (.new hooks materialize) before)
    (taken : before.step action = some begun) (run : Reaches Manager.step begun after) :
    ErrorsReported before begun after := by
  have sound := managerSound_run reached
  have begunSound := sound.step taken
  refine ⟨?_, ?_, ?_, ?_, ?_⟩
  · intro sid old current final oldLocated located laterLocated idle busy finished
    exact (sound.executions_reported taken run oldLocated located laterLocated idle
      busy).published finished
  · intro group current final _ present busy laterPresent finished sid member located
      home published registered
    exact sound.sessions_reported taken run present busy laterPresent finished located
      home published registered
  · intro sid id current final entry later located laterLocated found laterFound
    have forward : ∀ m own next, SessionSound m →
        PoolEvolves current.machine.executions m.executions →
          SessionMachine.step m own = some next →
            PoolEvolves current.machine.executions next.executions :=
      fun m own next machineSound held stepped =>
        held.trans (machineSound.executions_evolve stepped)
    obtain ⟨last, lastLocated, _, evolved⟩ :=
      Manager.member_run begunSound run located (.refl _) forward
    rw [laterLocated] at lastLocated
    cases lastLocated
    obtain ⟨same, sameFound, entryForward⟩ := evolved id entry found
    rw [laterFound] at sameFound
    cases sameFound
    exact entryForward.close.agrees
  · intro sid current final located laterLocated
    have forward : ∀ m own next, SessionSound m →
        current.machine.gate.close.Evolves m.gate.close →
          SessionMachine.step m own = some next →
            current.machine.gate.close.Evolves next.gate.close :=
      fun m own next machineSound held stepped =>
        held.trans (machineSound.gate_evolves stepped).close
    obtain ⟨last, lastLocated, _, evolved⟩ :=
      Manager.member_run begunSound run located (.refl _) forward
    rw [laterLocated] at lastLocated
    cases lastLocated
    exact evolved.agrees
  · intro group current final present laterPresent
    exact (Manager.group_run run present laterPresent).agrees

/-- `Manager.Close` of the population: the error of the Execution's Universal session
is the result of the Execution, of its session and of the workspace. -/
theorem cleanup_errors_reported_shutdown :
    ∃ before begun after, Reaches Manager.step (.new 1 fun _ _ => ⟨"failed", []⟩) before ∧
      before.step .close = some begun ∧ Reaches Manager.step begun after ∧
      (after.pool.map (fun group => group.gate.close) = [⟨.finished, [.external 5]⟩] ∧
        after.sessions.map (fun member =>
          (member.machine.gate.close,
            member.machine.executions.map fun entry => entry.machine.execution.close)) =
          [(⟨.finished, [.external 5]⟩, [⟨.finished, [.external 5]⟩])]) ∧
      ErrorsReported before begun after := by
  have passed :
      (execute Manager.step (.new 1 fun _ _ => ⟨"failed", []⟩)
        (populateSchedule ++ .close :: shutdownSchedule.tail)).map
        (fun mgr => decide
          (mgr.pool.map (fun group => group.gate.close) =
              [⟨.finished, [.external 5]⟩] ∧
            mgr.sessions.map (fun member =>
              (member.machine.gate.close,
                member.machine.executions.map fun entry => entry.machine.execution.close)) =
              [(⟨.finished, [.external 5]⟩, [⟨.finished, [.external 5]⟩])])) =
      some true := by
    decide
  obtain ⟨before, begun, after, reached, taken, run, results⟩ := exists_step_of_test passed
  exact ⟨before, begun, after, reached, taken, run, of_decide_eq_true results,
    cleanup_errors_reported reached taken run⟩

end Ferretd.Exec

import Ferretd.Exec.ManagerMoves

/-!
# A workspace whose sessions have been taken over

When `CloseWorkspace` has begun the close of a group, no other group is given sessions of
the workspace unless a creation finds the workspace again.
-/

namespace Ferretd.Exec

open Library

/-- `group` is closing, and every other group of the workspace that has not finished
its close operation is without sessions and without a creation that could publish
one. -/
structure Sealed (ws group : Nat) (mgr : Manager) : Prop where
  closing : ∃ found, mgr.pool[group]? = some found ∧ found.gate.close.state ≠ .idle
  others :
    ∀ (other : Nat) (found : WorkspaceGroup), mgr.pool[other]? = some found →
      found.workspace = ws → other ≠ group →
        found.gate.close.state ≠ .finished → found.sessions = [] ∧ ¬found.Resolved

namespace Sealed

variable {ws group sid : Nat} {mgr next : Manager} {action : ManagerAction} {member : Member}
  {entry : SessionEntry}

/-- `beginWorkspaceClose` finds every group with sessions or creations that is not
already finished. -/
theorem begin (sound : ManagerSound mgr) (taken : mgr.beginWorkspaceClose ws = some next) :
    Sealed ws (mgr.groupOf ws).2 next := by
  simp only [Manager.beginWorkspaceClose] at taken
  obtain ⟨found, present, rfl⟩ := Option.map_eq_some_iff.mp taken
  obtain ⟨locatedSound, registered, _⟩ :=
    sound.groupOf ws (Prod.eta (mgr.groupOf ws)).symm
  obtain ⟨_, _, _, busy, _⟩ := found.beginClose_frame
  refine ⟨⟨found.beginClose, ?_, busy⟩, ?_⟩
  · exact List.getElem?_set_self (List.getElem?_eq_some_iff.mp present).1
  intro other before located home different unfinished
  rcases getElem?_set_cases located with ⟨same, _⟩ | ⟨_, stays⟩
  · exact absurd same different
  have dead : ¬before.Live := by
    intro live
    have current := locatedSound.current other before stays live
    rw [home, registered] at current
    cases current
    exact different rfl
  have empty : before.creations = [] ∧ before.sessions = [] := by
    by_contra some
    apply dead
    refine ⟨unfinished, ?_⟩
    by_cases creations : before.creations = []
    · exact Or.inr (Or.inl fun sessions => some ⟨creations, sessions⟩)
    · exact Or.inl creations
  refine ⟨empty.2, ?_⟩
  rintro ⟨pc, member, _⟩
  rw [empty.1] at member
  cases member

theorem step (sealed : Sealed ws group mgr) (effect : ManagerEffect mgr action next)
    (unresolved : ¬mgr.Resolves action ws) : Sealed ws group next := by
  have moves := effect.pool_moves
  constructor
  · obtain ⟨found, present, busy⟩ := sealed.closing
    obtain ⟨later, reached, move⟩ := moves.kept group found present
    exact ⟨later, reached, move.close.started busy⟩
  intro other later reached home different unfinished
  cases present : mgr.pool[other]? with
  | none => exact moves.fresh other later reached present
  | some found =>
    obtain ⟨same, samePresent, move⟩ := moves.kept other found present
    rw [reached] at samePresent
    cases samePresent
    have earlier : found.workspace = ws := move.workspace.symm.trans home
    have running : found.gate.close.state ≠ .finished := by
      intro finished
      rw [move.close.finished finished] at unfinished
      exact unfinished finished
    obtain ⟨sessions, unpublishing⟩ :=
      sealed.others other found present earlier different running
    constructor
    · rw [List.eq_nil_iff_forall_not_mem]
      intro sid inside
      rcases move.grows sid inside with before | resolved
      · rw [sessions] at before
        cases before
      · exact unpublishing resolved
    · intro resolved
      rcases move.resolved resolved with before | resolving
      · exact unpublishing before
      · rw [earlier] at resolving
        exact unresolved resolving

theorem published (sealed : Sealed ws group next) (sound : ManagerSound mgr)
    (nextSound : ManagerSound next) (effect : ManagerEffect mgr action next)
    (located : next.sessions[sid]? = some member)
    (home : member.machine.core.session.workspace = ws)
    (isPublished : member.machine.entry ≠ none) :
    ∃ before, mgr.sessions[sid]? = some before ∧
      before.machine.core.session.workspace = ws ∧
      before.machine.entry ≠ none := by
  rcases (effect.sessions_move sound).published located isPublished with
    ⟨before, earlier, _, known⟩ | ⟨found, present, idle, inside⟩
  · refine ⟨before, earlier, ?_, known⟩
    obtain ⟨later, reached, _, moved⟩ := (effect.sessions_move sound).member_step earlier
    rw [located] at reached
    cases reached
    rcases moved with same | ⟨own, stepped⟩
    · rw [← same]
      exact home
    · rw [← (sound.members sid before earlier).1.workspace_step stepped]
      exact home
  · -- A publication needs a group of the workspace that accepts and has the session.
    obtain ⟨same, samePresent, sameHome⟩ := (nextSound.members sid member located).2
    rw [present] at samePresent
    cases samePresent
    have different : member.group ≠ group := by
      intro equal
      obtain ⟨closing, closingPresent, busy⟩ := sealed.closing
      rw [← equal, present] at closingPresent
      cases closingPresent
      exact busy idle
    have empty := (sealed.others member.group found present (sameHome.trans home)
      different (by simp [idle])).1
    rw [empty] at inside
    cases inside

/-- Once the sealed group has finished, a session of the workspace that is still in
the registry has published its result and waits for its own removal only. -/
theorem settled {found : WorkspaceGroup} (sealed : Sealed ws group mgr)
    (sound : ManagerSound mgr) (present : mgr.pool[group]? = some found)
    (finished : found.gate.close.state = .finished) (located : mgr.sessions[sid]? = some member)
    (home : member.machine.core.session.workspace = ws)
    (published : member.machine.entry = some entry) (isListed : entry.listed = true) :
    entry.state = .closing ∧ member.machine.gate.close.state = .finished ∧
      member.machine.worker = some .removeEntry := by
  obtain ⟨own, ownPresent, inside⟩ :=
    sound.listed sid member entry located published isListed
  obtain ⟨machineSound, same, samePresent, sameHome⟩ :=
    sound.members sid member located
  rw [ownPresent] at samePresent
  cases samePresent
  have done : own.gate.close.state = .finished := by
    by_contra unfinished
    by_cases equal : member.group = group
    · rw [equal, present] at ownPresent
      cases ownPresent
      exact unfinished finished
    have empty := (sealed.others member.group own ownPresent (sameHome.trans home) equal
      unfinished).1
    rw [empty] at inside
    cases inside
  obtain ⟨joined, known, closed, _⟩ :=
    (sound.joining member.group own ownPresent).finished done sid inside
  rw [located] at known
  cases known
  refine ⟨?_, closed, machineSound.ownership.removing entry published isListed closed⟩
  cases state : entry.state with
  | active =>
    have idle := (machineSound.ownership.entry entry published).1 state
    cases idle.symm.trans closed
  | closing => rfl

end Sealed

end Ferretd.Exec

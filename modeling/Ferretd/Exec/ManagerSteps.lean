import Ferretd.Exec.ManagerInvariant

/-!
# The manager keeps its invariant

One lemma for every kind of step of the manager, and from them the invariant of every
run.
-/

namespace Ferretd.Exec

open Library List

variable {mgr : Manager} {found : WorkspaceGroup} {pc' pc : WorkspaceClosePC}
  {sessions : List Member} {hooks : Nat} {materialize : Nat → GoError → RuntimeFailure}

theorem Joining.owner (joining : Joining mgr.sessions found)
    (started : found.gate.close.state = .started) (working : found.worker = some pc)
    (move : OwnerMove mgr found pc pc') :
    Joining mgr.sessions { found with worker := some pc' } := by
  have unfinished : ¬found.gate.close.state = .finished := by simp [started]
  cases move with
  | capture | created =>
    refine ⟨?_, ?_, ?_, fun finished => absurd finished unfinished⟩
    · nofun
    · nofun
    · nofun
  | retain visits =>
    refine ⟨?_, ?_, ?_, fun finished => absurd finished unfinished⟩
    · intro remaining result same sid inside
      cases same
      exact .inl (visits.mem_iff.mpr inside)
    · nofun
    · nofun
  | @closed result =>
    refine ⟨?_, ?_, ?_, fun finished => absurd finished unfinished⟩
    · nofun
    · nofun
    intro more same sid inside
    cases same
    rcases joining.closing [] result working sid inside with waits | joined
    · cases waits
    · exact joined
  | @joined awaited member rest result present finished =>
    refine ⟨?_, ?_, ?_, fun finished => absurd finished unfinished⟩
    · intro remaining more same sid inside
      cases same
      rcases joining.awaiting awaited rest result working sid inside with
        rfl | waits | joined
      · exact .inr ⟨member, present, finished, GoError.subset_join_right _ _⟩
      · exact .inl waits
      · exact .inr (joined.mono (GoError.subset_join_left _ _))
    · nofun
    · nofun

theorem WorkspaceGroup.beginClose_frame (found : WorkspaceGroup) :
    found.beginClose.workspace = found.workspace ∧
      found.beginClose.sessions = found.sessions ∧
      found.beginClose.creations = found.creations ∧
      found.beginClose.gate.close.state ≠ .idle ∧
      (found.beginClose.gate.close.state = .finished → found.gate.close.state = .finished) := by
  by_cases idle : found.gate.close.state = .idle
  · simp [WorkspaceGroup.beginClose, Gate.beginClose_of_accepting idle]
  · simp [WorkspaceGroup.beginClose, Gate.beginClose_of_started idle, idle]

theorem Joining.beginClose (joining : Joining sessions found) :
    Joining sessions found.beginClose := by
  by_cases idle : found.gate.close.state = .idle
  · have begun : found.beginClose = { found with
          gate := { found.gate with close := { found.gate.close with state := .started } }
          worker := some .waitForCreates } := by
      simp [WorkspaceGroup.beginClose, Gate.beginClose_of_accepting idle]
    rw [begun]
    refine ⟨?_, ?_, ?_, ?_⟩
    · nofun
    · nofun
    · nofun
    · nofun
  · have same : found.beginClose = found := by
      simp [WorkspaceGroup.beginClose, Gate.beginClose_of_started idle]
    rw [same]
    exact joining

namespace ManagerSound

/-! ## Creations -/

variable {group sid : Nat} {member : Member} {m : SessionMachine} {gate : Gate}
  {answer : Answer} {order : List Nat}

section

variable {index : Nat} {idle : Bool} {err : GoError} (sound : ManagerSound mgr)
include sound

theorem enroll (isOpen : mgr.closed = false) (present : mgr.pool[group]? = some found)
    (current : mgr.groups found.workspace = some group)
    (admitted : found.gate.beginCreate.1 = true) :
    ManagerSound (mgr.setGroup group { found with
        gate := found.gate.beginCreate.2
        creations := found.creations ++ [.get] }) := by
  have groupSound := (sound.groups group found present).enroll admitted
  have idle : found.gate.beginCreate.2.close.state = .idle := by
    have accepting : found.gate.close.state = .idle := by
      by_contra busy
      simp [Gate.beginCreate_of_started busy] at admitted
    rw [(Gate.beginCreate_of_accepting accepting).2.2]
    exact accepting
  refine sound.setGroup present rfl groupSound (fun _ => current)
    (fun _ inside => .inl inside) (fun _ inside => inside) ?_ ?_
    (Joining.of_idle _ groupSound idle) ?_
  · intro pc member sid holds
    rcases mem_append.mp member with before | fresh
    · exact ⟨pc, before, holds⟩
    · rw [mem_singleton.mp fresh] at holds
      cases holds
  · intro pc member sid holds
    exact .inl ⟨pc, mem_append_left _ member, holds⟩
  · intro closed
    rw [isOpen] at closed
    cases closed

theorem compiled {pc' : SessionCreatePC} (present : mgr.pool[group]? = some found)
    (creator : found.creations[index]? = some .compile)
    (holds : pc'.session = some mgr.sessions.length) :
    ManagerSound ((mgr.compiled group found).setGroup group (found.goOn index pc')) := by
  have groupSound := sound.groups group found present
  have inside := (List.getElem?_eq_some_iff.mp creator).1
  have member := mem_of_getElem? creator
  have nonempty : found.creations ≠ [] := ne_nil_of_mem member
  have set : pc' ∈ found.creations.set index pc' := mem_set inside pc'
  have evolves := MembersEvolve.concat mgr.sessions
    ⟨group, .init mgr.sessions.length found.workspace mgr.hooks
      (mgr.materialize mgr.sessions.length)⟩
  refine sound.update present ⟨evolves, ?_, rfl, groupSound.goOn index pc' found.sessions,
    ?_, ?_, fun _ stays => .inl stays, ?_, ?_, ?_, ?_⟩
  · intro sid fresh located
    rcases getElem?_concat_cases located with ⟨_, rfl⟩ | before
    · exact ⟨sessionSound_init _ _ _ _, .inr ⟨rfl, rfl⟩⟩
    · exact ⟨(sound.members sid fresh before).1,
        .inl ⟨fresh, before, Member.Evolves.refl fresh⟩⟩
  · intro live
    exact sound.current group found present ⟨live.1, .inl nonempty⟩
  · intro sid fresh entry located published isListed
    rcases getElem?_concat_cases located with ⟨_, rfl⟩ | before
    · cases published
    · exact .inl ⟨fresh, entry, before, rfl, published, isListed, id⟩
  · intro pc pcMember sid pcHolds
    rcases mem_or_eq_of_mem_set pcMember with before | rfl
    · exact .inl ⟨pc, before, pcHolds⟩
    · rw [holds] at pcHolds
      cases pcHolds
      exact .inr ⟨_, getElem?_concat_length, rfl⟩
  · intro sid fresh located unpublished planned
    rcases getElem?_concat_cases located with ⟨rfl, rfl⟩ | before
    · exact .inr ⟨rfl, pc', set, holds⟩
    refine .inl ⟨fresh, before, rfl, unpublished, planned, ?_⟩
    intro pc pcMember pcHolds
    rcases eq_or_mem_set creator pcMember pc' with rfl | stays
    · cases pcHolds
    · exact ⟨pc, stays, pcHolds⟩
  · obtain ⟨closing, awaiting, finishing, finished⟩ :=
      (sound.joining group found present).evolve evolves
    exact ⟨closing, awaiting, finishing, finished⟩
  · intro closed idle
    exact absurd (sound.shut closed group found present idle).1 nonempty

theorem publish (present : mgr.pool[group]? = some found)
    (creator : found.creations[index]? = some (.commit sid))
    (located : mgr.sessions[sid]? = some member) (isOpen : mgr.closed = false)
    (current : mgr.groups found.workspace = some group)
    (accepting : found.gate.accepting = true) (taken : member.machine.step .publish = some m) :
    ManagerSound
      ((mgr.setSession sid { member with machine := m }).setGroup group
        ((found.add sid).goOn index (.finish []))) := by
  have groupSound := sound.groups group found present
  have nextSound :=
    groupSound.goOn index (.finish []) (found.sessions ++ [sid])
  have idle : found.gate.close.state = .idle := by
    simpa [Gate.accepting] using accepting
  have machineSound := (sound.members sid member located).1
  have evolves := MembersEvolve.set located (Member.evolves_step machineSound taken)
  have home : member.group = group := by
    obtain ⟨same, known, group⟩ := sound.holders group found present _
      (mem_of_getElem? creator) sid rfl
    rw [located] at known
    cases known
    exact group
  have published : m.entry = some ⟨.active, true⟩ := by
    simp only [SessionMachine.step] at taken
    split at taken
    · cases taken
      rfl
    · cases taken
  refine sound.update present ⟨evolves, ?_, rfl, nextSound, fun _ => current, ?_, ?_, ?_,
    ?_, Joining.of_idle _ nextSound idle, ?_⟩
  · intro other later known
    rcases getElem?_set_cases known with ⟨rfl, rfl⟩ | ⟨_, before⟩
    · exact ⟨machineSound.step taken,
        .inl ⟨member, located, Member.evolves_step machineSound taken⟩⟩
    · exact ⟨(sound.members other later before).1,
        .inl ⟨later, before, Member.Evolves.refl later⟩⟩
  · intro other later entry known isPublished isListed
    rcases getElem?_set_cases known with ⟨rfl, rfl⟩ | ⟨_, before⟩
    · exact .inr ⟨home, mem_append_right _ mem_cons_self⟩
    · exact .inl ⟨later, entry, before, rfl, isPublished, isListed, mem_append_left _⟩
  · intro other inside
    rcases mem_append.mp inside with before | fresh
    · exact .inl before
    rw [mem_singleton.mp fresh]
    right
    refine ⟨{ member with machine := m }, ?_, home, by simp [published]⟩
    exact getElem?_set_self (List.getElem?_eq_some_iff.mp located).1
  · intro pc pcMember other holds
    rcases mem_or_eq_of_mem_set pcMember with before | rfl
    · exact .inl ⟨pc, before, holds⟩
    · cases holds
  · intro other later known unpublished planned
    rcases getElem?_set_cases known with ⟨rfl, rfl⟩ | ⟨different, before⟩
    · simp [published] at unpublished
    refine .inl ⟨later, before, rfl, unpublished, planned, ?_⟩
    intro pc pcMember holds
    rcases eq_or_mem_set creator pcMember (.finish []) with rfl | stays
    · cases holds
      exact absurd rfl different
    · exact ⟨pc, stays, holds⟩
  · intro closed
    rw [isOpen] at closed
    cases closed

theorem discard {reported : GoError}
    {failure : CreateFailure} (present : mgr.pool[group]? = some found)
    (creator : found.creations[index]? = some (.discard sid err failure))
    (located : mgr.sessions[sid]? = some member) (taken : member.machine.step .discard = some m) :
    ManagerSound
      ((mgr.setSession sid { member with machine := m }).setGroup group
        (found.goOn index (.finish reported))) := by
  have closed : m.core.session.plan = none := by
    simp only [SessionMachine.step, SessionMachine.discard, Session.closeUnpublished] at taken
    split at taken
    next held =>
      obtain ⟨_, rfl⟩ := Prod.mk.inj held
      cases taken
      rfl
    · cases taken
  refine (sound.setSession located (by simp) taken).goOn present creator (.inr ?_) (.inr rfl)
  intro other holds later known _
  cases holds
  rcases getElem?_set_cases known with ⟨_, rfl⟩ | ⟨different, _⟩
  · exact closed
  · exact absurd rfl different

theorem finishCreate (present : mgr.pool[group]? = some found)
    (creator : found.creations[index]? = some (.finish err))
    (ended : found.gate.endCreate = .ok (idle, gate)) :
    ManagerSound (mgr.setGroup group { found with
        gate := gate
        creations := found.creations.eraseIdx index }) := by
  have groupSound := sound.groups group found present
  have nonempty : found.creations ≠ [] :=
    ne_nil_of_mem (mem_of_getElem? creator)
  have close := (Gate.endCreate_ok ended).2.1
  refine sound.setGroup present rfl (groupSound.finishCreate creator ended) ?_
    (fun _ inside => .inl inside) (fun _ inside => inside) ?_ ?_ ?_ ?_
  · intro live
    refine sound.current group found present ⟨?_, .inl nonempty⟩
    rw [← close]
    exact live.1
  · intro pc member sid holds
    exact ⟨pc, mem_of_mem_eraseIdx member, holds⟩
  · intro pc member sid holds
    rcases eq_or_mem_eraseIdx creator member with rfl | stays
    · cases holds
    · exact .inl ⟨pc, stays, holds⟩
  · obtain ⟨closing, awaiting, finishing, finished⟩ := sound.joining group found present
    refine ⟨closing, awaiting, finishing, ?_⟩
    dsimp only
    rw [close]
    exact finished
  · intro closed accepting
    dsimp only at accepting
    rw [close] at accepting
    exact absurd (sound.shut closed group found present accepting).1 nonempty

end

/-! ## Sessions -/

theorem removeCompleted (sound : ManagerSound mgr) (ws : Nat)
    (unlisted : ∀ member entry, mgr.sessions[sid]? = some member →
      member.machine.entry = some entry → entry.listed = false) :
    ManagerSound (mgr.removeCompleted sid ws) := by
  unfold Manager.removeCompleted
  split
  · exact sound
  rename_i pos known
  split
  · exact sound
  rename_i found present
  have groupSound := sound.groups pos found present
  have updated : ManagerSound (mgr.setGroup pos (found.removeCompleted sid).2) := by
    by_cases accepting : found.gate.accepting = true
    · have idle : found.gate.close.state = .idle := by
        simpa [Gate.accepting] using accepting
      have same : (found.removeCompleted sid).2 =
          { found with sessions := found.sessions.erase sid } := by
        simp [WorkspaceGroup.removeCompleted, accepting]
      have nextSound := groupSound.withSessions (found.sessions.erase sid)
      rw [same]
      refine sound.setGroup present rfl nextSound ?_ ?_ ?_
        (fun pc member other holds => ⟨pc, member, holds⟩)
        (fun pc member other holds => .inl ⟨pc, member, holds⟩)
        (Joining.of_idle _ nextSound idle) ?_
      · intro live
        refine sound.current pos found present ⟨live.1, ?_⟩
        rcases live.2 with creations | sessions | busy
        · exact .inl creations
        · exact .inr (.inl fun none => sessions (by simp [none]))
        · exact .inr (.inr busy)
      · intro other inside
        by_cases different : other = sid
        · subst different
          exact .inr unlisted
        · exact .inl ((mem_erase_of_ne different).mpr inside)
      · intro other inside
        exact mem_of_mem_erase inside
      · intro closed idle
        obtain ⟨creations, sessions⟩ :=
          sound.shut closed pos found present idle
        exact ⟨creations, by simp [sessions]⟩
    · have same : (found.removeCompleted sid).2 = found := by
        simp [WorkspaceGroup.removeCompleted, accepting]
      rw [same, ManagerEffect.setGroup_self present]
      exact sound
  dsimp only
  split
  next discards =>
    simp only [WorkspaceGroup.removeCompleted, Bool.and_eq_true, Gate.idle,
      decide_eq_true_eq] at discards
    obtain ⟨⟨accepting, none⟩, empty⟩ := discards
    refine updated.forget ws pos ?_
    intro later located live
    rcases getElem?_set_cases located with ⟨_, rfl⟩ | ⟨different, _⟩
    · have idle : found.gate.close.state = .idle := by
        simpa [Gate.accepting] using accepting
      have creations : found.creations = [] := by
        rw [groupSound.creating] at none
        exact eq_nil_of_length_eq_zero none
      rcases live.2 with some | some | busy
      · exact some creations
      · exact some (by simpa [WorkspaceGroup.removeCompleted] using empty)
      · exact busy idle
    · exact absurd rfl different
  · exact updated

theorem remove (sound : ManagerSound mgr) (located : mgr.sessions[sid]? = some member)
    (owner : member.machine.worker = some .removeEntry)
    (taken : member.machine.step (.close answer order) = some m) :
    ManagerSound ((mgr.setSession sid { member with machine := m }).removeCompleted sid
        member.machine.core.session.workspace) := by
  have stepped := sound.setSession located (by simp) taken
  refine stepped.removeCompleted _ ?_
  intro later entry known published
  rcases getElem?_set_cases known with ⟨_, rfl⟩ | ⟨different, _⟩
  · simp only [SessionMachine.step, owner, SessionMachine.closeStep] at taken
    cases taken
    obtain ⟨before, _, rfl⟩ := Option.map_eq_some_iff.mp published
    rfl
  · exact absurd rfl different

/-! ## Closing a group -/

section

variable {rest : List Nat} {result : GoError} {ws : Nat} (sound : ManagerSound mgr)
include sound

theorem beginClose (present : mgr.pool[group]? = some found)
    (current : mgr.groups found.workspace = some group) :
    ManagerSound (mgr.setGroup group found.beginClose) := by
  obtain ⟨ws, sessions, creations, busy, _⟩ := found.beginClose_frame
  refine sound.setGroup present ws (sound.groups group found present).beginClose
    (fun _ => current) ?_ ?_ ?_ ?_ (sound.joining group found present).beginClose ?_
  · rw [sessions]
    exact fun _ inside => .inl inside
  · rw [sessions]
    exact fun _ inside => inside
  · rw [creations]
    exact fun pc member sid holds => ⟨pc, member, holds⟩
  · rw [creations]
    exact fun pc member sid holds => .inl ⟨pc, member, holds⟩
  · intro closed idle
    exact absurd idle busy

theorem beginShutdown : ManagerSound mgr.beginShutdown := by
  have origin : ∀ {pos : Nat} {after : WorkspaceGroup},
      mgr.beginShutdown.pool[pos]? = some after →
        ∃ before, mgr.pool[pos]? = some before ∧
          (after = before ∧ mgr.groups before.workspace ≠ some pos ∨
            after = before.beginClose ∧ mgr.groups before.workspace = some pos) := by
    intro pos after located
    simp only [Manager.beginShutdown, getElem?_mapIdx] at located
    obtain ⟨before, known, rfl⟩ := Option.map_eq_some_iff.mp located
    refine ⟨before, known, ?_⟩
    split
    next registered => exact .inr ⟨rfl, registered⟩
    next other => exact .inl ⟨rfl, other⟩
  have image : ∀ {pos : Nat} {before : WorkspaceGroup},
      mgr.pool[pos]? = some before →
        ∃ after, mgr.beginShutdown.pool[pos]? = some after ∧
          after.workspace = before.workspace ∧ after.sessions = before.sessions ∧
          after.creations = before.creations := by
    intro pos before known
    obtain ⟨ws, sessions, creations, _⟩ := before.beginClose_frame
    simp only [Manager.beginShutdown, getElem?_mapIdx, known, Option.map_some]
    refine ⟨_, rfl, ?_⟩
    split
    · exact ⟨ws, sessions, creations⟩
    · exact ⟨rfl, rfl, rfl⟩
  constructor
  · intro pos after located
    obtain ⟨before, known, ⟨rfl, _⟩ | ⟨rfl, registered⟩⟩ := origin located
    · exact sound.groups pos after known
    · exact (sound.groups pos before known).beginClose
  · intro sid member present
    obtain ⟨machineSound, home, homePresent, ws⟩ :=
      sound.members sid member present
    obtain ⟨after, located, same, _⟩ := image homePresent
    exact ⟨machineSound, after, located, same.trans ws⟩
  · intro ws pos registered
    obtain ⟨before, known, same⟩ := sound.registered ws pos registered
    obtain ⟨after, located, unchanged, _⟩ := image known
    exact ⟨after, located, unchanged.trans same⟩
  · intro pos after located live
    obtain ⟨before, known, ⟨rfl, _⟩ | ⟨rfl, registered⟩⟩ := origin located
    · exact sound.current pos after known live
    · exact (congrArg mgr.groups before.beginClose_frame.1).trans registered
  · intro sid member entry present published isListed
    obtain ⟨before, known, inside⟩ :=
      sound.listed sid member entry present published isListed
    obtain ⟨after, located, _, sessions, _⟩ := image known
    exact ⟨after, located, sessions ▸ inside⟩
  · intro pos after located sid inside
    obtain ⟨before, known, ⟨rfl, _⟩ | ⟨rfl, registered⟩⟩ := origin located
    · exact sound.retained pos after known sid inside
    · rw [before.beginClose_frame.2.1] at inside
      exact sound.retained pos before known sid inside
  · intro pos after located pc member sid holds
    obtain ⟨before, known, ⟨rfl, _⟩ | ⟨rfl, registered⟩⟩ := origin located
    · exact sound.holders pos after known pc member sid holds
    · rw [before.beginClose_frame.2.2.1] at member
      exact sound.holders pos before known pc member sid holds
  · intro sid member present unpublished planned
    obtain ⟨before, known, pc, pcMember, holds⟩ :=
      sound.held sid member present unpublished planned
    obtain ⟨after, located, _, _, creations⟩ := image known
    exact ⟨after, located, pc, creations ▸ pcMember, holds⟩
  · intro pos after located
    obtain ⟨before, known, ⟨rfl, _⟩ | ⟨rfl, registered⟩⟩ := origin located
    · exact sound.joining pos after known
    · exact (sound.joining pos before known).beginClose
  · intro _ pos after located idle
    obtain ⟨before, known, ⟨rfl, unregistered⟩ | ⟨rfl, _⟩⟩ := origin located
    · -- A group that no workspace has any more is not live.
      have dead : ¬after.Live := fun live =>
        unregistered (sound.current pos after known live)
      have unfinished : after.gate.close.state ≠ .finished := by simp [idle]
      constructor
      · by_contra creations
        exact dead ⟨unfinished, .inl creations⟩
      · by_contra sessions
        exact dead ⟨unfinished, .inr (.inl sessions)⟩
    · exact absurd idle before.beginClose_frame.2.2.2.1

theorem owner (present : mgr.pool[group]? = some found)
    (working : found.worker = some pc) (move : OwnerMove mgr found pc pc') :
    ManagerSound (mgr.setGroup group { found with worker := some pc' }) := by
  have groupSound := sound.groups group found present
  have started := groupSound.started_of_worker working
  have joining := sound.joining group found present
  refine sound.setGroup present rfl (groupSound.owner working move) ?_
    (fun _ inside => .inl inside) (fun _ inside => inside)
    (fun pc member sid holds => ⟨pc, member, holds⟩)
    (fun pc member sid holds => .inl ⟨pc, member, holds⟩) ?_ ?_
  · intro live
    exact sound.current group found present live
  · exact joining.owner started working move
  · intro closed idle
    cases started.symm.trans idle

theorem closeSession (present : mgr.pool[group]? = some found)
    (working : found.worker = some (.closeSessions (sid :: rest) result))
    (located : mgr.sessions[sid]? = some member)
    (taken : member.machine.step .beginClose = some m) :
    ManagerSound
      ((mgr.setSession sid { member with machine := m }).setGroup group
        { found with worker := some (.awaitSession sid rest result) }) := by
  have stepped := sound.setSession located (by simp) taken
  have groupSound := sound.groups group found present
  have started := groupSound.started_of_worker working
  have joining := stepped.joining group found present
  refine stepped.setGroup present rfl (groupSound.awaitSession working) ?_
    (fun _ inside => .inl inside) (fun _ inside => inside)
    (fun pc member sid holds => ⟨pc, member, holds⟩)
    (fun pc member sid holds => .inl ⟨pc, member, holds⟩) ?_ ?_
  · intro live
    exact sound.current group found present live
  · refine ⟨?_, ?_, ?_, ?_⟩
    · nofun
    · intro current remaining more same other inside
      cases same
      rcases joining.closing _ result working other inside with waits | joined
      · rcases mem_cons.mp waits with same | later
        · exact .inl same
        · exact .inr (.inl later)
      · exact .inr (.inr joined)
    · nofun
    · intro finished
      cases started.symm.trans finished
  · intro closed idle
    cases started.symm.trans idle

theorem finishClose (present : mgr.pool[group]? = some found)
    (working : found.worker = some (.finishClose result))
    (finished : found.gate.finishClose result = .ok gate) :
    ManagerSound ((mgr.setGroup group
      { found with gate := gate, worker := none }).forget found.workspace group) := by
  have groupSound := sound.groups group found present
  have nextSound := groupSound.finishClose finished
  have joining := sound.joining group found present
  obtain ⟨_, started, rfl⟩ := Gate.finishClose_ok finished
  have updated : ManagerSound (mgr.setGroup group
      { found with gate := { found.gate with close := ⟨.finished, result⟩ },
                   worker := none }) := by
    refine sound.setGroup present rfl nextSound ?_ (fun _ inside => .inl inside)
      (fun _ inside => inside) (fun pc member sid holds => ⟨pc, member, holds⟩)
      (fun pc member sid holds => .inl ⟨pc, member, holds⟩) ?_ ?_
    · intro live
      exact absurd rfl live.1
    · refine ⟨?_, ?_, ?_, fun _ => joining.finishing result working⟩
      · nofun
      · nofun
      · nofun
    · nofun
  refine updated.forget _ _ ?_
  intro later located live
  rcases getElem?_set_cases located with ⟨_, rfl⟩ | ⟨different, _⟩
  · exact live.1 rfl
  · exact absurd rfl different

theorem current_of_registered (registered : mgr.groups ws = some group)
    (present : mgr.pool[group]? = some found) :
    mgr.groups found.workspace = some group := by
  obtain ⟨same, known, rfl⟩ := sound.registered ws group registered
  rw [present] at known
  cases known
  exact registered

end

theorem step {next : Manager} {action : ManagerAction} (sound : ManagerSound mgr)
    (taken : mgr.step action = some next) : ManagerSound next := by
  cases ManagerEffect.of_step taken with
  | keep => exact sound
  | @located action ws => exact (sound.groupOf ws rfl).1
  | @enroll ws _ _ _ isOpen locates present admitted =>
    obtain ⟨locatedSound, registered, closed, _⟩ := sound.groupOf ws locates
    exact locatedSound.enroll (closed.trans isOpen) present
      (locatedSound.current_of_registered registered present) admitted
  | goOn present creator holds =>
    exact sound.goOn present creator (.inl holds) (.inl holds)
  | compiled present creator holds =>
    exact sound.compiled present creator holds
  | discard present creator located advanced =>
    exact sound.discard present creator located advanced
  | publish present creator located isOpen current accepting advanced =>
    exact sound.publish present creator located isOpen current accepting advanced
  | @finishCreate group _ _ _ _ _ _ gate present creator ended forgets =>
    have updated := sound.finishCreate present creator ended
    rcases forgets with rfl | ⟨rfl, accepting, empty, rfl⟩
    · exact updated
    refine updated.forget _ _ ?_
    intro later located live
    rcases getElem?_set_cases located with ⟨_, rfl⟩ | ⟨different, _⟩
    · have groupSound := updated.groups group _ located
      have none : gate.creating = 0 := (Gate.endCreate_ok ended).2.2.1 rfl
      have creations := groupSound.creating
      rcases live.2 with some | some | busy
      · exact some (eq_nil_of_length_eq_zero (creations.symm.trans none))
      · exact some empty
      · exact busy (by simpa [Gate.accepting] using accepting)
    · exact absurd rfl different
  | session located direct advanced =>
    exact sound.setSession located direct.1 advanced
  | remove located owner advanced =>
    exact sound.remove located owner advanced
  | @beginClose ws _ _ _ locates present =>
    obtain ⟨locatedSound, registered, _⟩ := sound.groupOf ws locates
    exact locatedSound.beginClose present (locatedSound.current_of_registered registered present)
  | shutdown => exact sound.beginShutdown
  | owner present working move =>
    exact sound.owner present working move
  | closeSession present working located advanced =>
    exact sound.closeSession present working located advanced
  | finishClose present working finished =>
    exact sound.finishClose present working finished

end ManagerSound

theorem managerSound_run (run : Reaches Manager.step (.new hooks materialize) mgr) :
    ManagerSound mgr :=
  run.invariant (managerSound_new hooks materialize) fun _ _ _ sound _ taken => sound.step taken

end Ferretd.Exec

import Ferretd.Exec.ManagerEffects

/-!
# The invariant of the manager

A group that still has creations, sessions or an owner is the group of its workspace, so a
close of the workspace finds it.  A session that is not published is held by one creation
until its Plan is closed.
-/

namespace Ferretd.Exec

open Library List

/-! ## One group -/

/-- Behind `waitForCreates`. -/
def WorkspaceClosePC.createsDone : WorkspaceClosePC → Bool
  | .waitForCreates | .awaitCreates _ => false
  | _ => true

structure GroupSound (group : WorkspaceGroup) : Prop where
  gate : group.gate.WellFormed
  creating : group.gate.creating = group.creations.length
  idle : group.gate.close.state = .idle → group.worker = none
  started : group.gate.close.state = .started → group.worker ≠ none
  finished : group.gate.close.state = .finished → group.worker = none
  awaits : ∀ captured, group.worker = some (.awaitCreates captured) → group.gate.Awaits captured
  done : ∀ pc, group.worker = some pc → pc.createsDone = true → group.creations = []

variable {mgr : Manager} {group : WorkspaceGroup} {sid : Nat} {result : GoError}
  {action : SessionAction}

namespace GroupSound

theorem new (ws : Nat) : GroupSound (.new ws) := by
  refine ⟨Gate.wellFormed_new, rfl, fun _ => rfl, ?_, fun _ => rfl, ?_, ?_⟩
  · nofun
  · nofun
  · nofun

section

variable {pc pc' : WorkspaceClosePC} {rest : List Nat} (sound : GroupSound group) {gate : Gate}
include sound

theorem started_of_worker (working : group.worker = some pc) :
    group.gate.close.state = .started := by
  cases state : group.gate.close.state with
  | idle =>
    have none := sound.idle state
    simp [working] at none
  | started => rfl
  | finished =>
    have none := sound.finished state
    simp [working] at none

theorem creations_of_finished
    (finished : group.gate.close.state = .finished) : group.creations = [] := by
  have none := sound.gate.finishedIdle finished
  rw [sound.creating] at none
  exact eq_nil_of_length_eq_zero none

theorem enroll (admitted : group.gate.beginCreate.1 = true) : GroupSound { group with
      gate := group.gate.beginCreate.2
      creations := group.creations ++ [.get] } := by
  have idle : group.gate.close.state = .idle := by
    by_contra busy
    simp [Gate.beginCreate_of_started busy] at admitted
  obtain ⟨_, counted, close⟩ := Gate.beginCreate_of_accepting idle
  have none := sound.idle idle
  refine ⟨sound.gate.beginCreate, ?_, fun _ => none, ?_, fun _ => none, ?_, ?_⟩
  · simp [counted, sound.creating]
  · dsimp only
    rw [close, idle]
    intro started
    cases started
  · intro captured owner
    simp [none] at owner
  · intro pc owner
    simp [none] at owner

theorem goOn (index : Nat) (pc : SessionCreatePC) (sessions : List Nat) :
    GroupSound { group with
      sessions := sessions
      creations := group.creations.set index pc } := by
  refine ⟨sound.gate, ?_, sound.idle, sound.started, sound.finished, sound.awaits, ?_⟩
  · rw [length_set]
    exact sound.creating
  · intro owner working passed
    simp [sound.done owner working passed]

theorem withSessions (sessions : List Nat) :
    GroupSound { group with sessions := sessions } :=
  ⟨sound.gate, sound.creating, sound.idle, sound.started, sound.finished, sound.awaits,
    sound.done⟩

theorem finishCreate {index : Nat} {pc : SessionCreatePC}
    {idle : Bool} (creator : group.creations[index]? = some pc)
    (ended : group.gate.endCreate = .ok (idle, gate)) :
    GroupSound { group with
      gate := gate
      creations := group.creations.eraseIdx index } := by
  obtain ⟨counted, close, _⟩ := Gate.endCreate_ok ended
  have inside := (List.getElem?_eq_some_iff.mp creator).1
  have wellFormed := sound.gate.endCreate ended
  refine ⟨wellFormed, ?_, ?_, ?_, ?_, ?_, ?_⟩
  · have creating := sound.creating
    rw [length_eraseIdx_of_lt inside]
    dsimp only
    omega
  · dsimp only
    rw [close]
    exact sound.idle
  · dsimp only
    rw [close]
    exact sound.started
  · dsimp only
    rw [close]
    exact sound.finished
  · intro captured owner
    exact (sound.awaits captured owner).evolve (Gate.evolves_endCreate ended) wellFormed
  · intro owner working passed
    have none := sound.done owner working passed
    simp [none] at creator

theorem beginClose : GroupSound group.beginClose := by
  unfold WorkspaceGroup.beginClose
  split
  next begun =>
    have idle : group.gate.close.state = .idle := by
      by_contra busy
      simp [Gate.beginClose_of_started busy] at begun
    have state := Gate.beginClose_of_accepting idle
    refine ⟨sound.gate.beginClose, ?_, ?_, fun _ => by simp, ?_, ?_, ?_⟩
    · rw [state]
      exact sound.creating
    · rw [state]
      intro same
      cases same
    · rw [state]
      intro same
      cases same
    · nofun
    · intro pc working passed
      cases working
      cases passed
  · exact sound

theorem owner (working : group.worker = some pc) (move : OwnerMove mgr group pc pc') :
    GroupSound { group with worker := some pc' } := by
  have started := sound.started_of_worker working
  have busy : group.gate.close.state ≠ .idle := by simp [started]
  refine ⟨sound.gate, sound.creating, ?_, fun _ => by simp, ?_, ?_, ?_⟩
  · intro idle
    exact absurd idle busy
  · intro finished
    cases started.symm.trans finished
  · intro captured same
    cases same
    cases move with
    | capture waits =>
      simp only [Gate.waitForCreates] at waits
      split at waits
      · cases waits
        exact Gate.awaits_waitForCreates sound.gate busy
      · cases waits
  · intro current same passed
    cases same
    cases move with
    | capture => cases passed
    | @created captured signal =>
      have none := (sound.awaits captured working).signalled signal
      rw [sound.creating] at none
      exact eq_nil_of_length_eq_zero none
    | _ => exact sound.done _ working rfl

theorem awaitSession (working : group.worker = some (.closeSessions (sid :: rest) result)) :
    GroupSound { group with worker := some (.awaitSession sid rest result) } := by
  have started := sound.started_of_worker working
  refine ⟨sound.gate, sound.creating, ?_, fun _ => by simp, ?_, ?_, ?_⟩
  · intro idle
    cases started.symm.trans idle
  · intro finished
    cases started.symm.trans finished
  · nofun
  · intro current same _
    exact sound.done _ working rfl

theorem finishClose (finished : group.gate.finishClose result = .ok gate) :
    GroupSound { group with gate := gate, worker := none } := by
  have wellFormed := sound.gate.finishClose finished
  obtain ⟨_, _, rfl⟩ := Gate.finishClose_ok finished
  refine ⟨wellFormed, sound.creating, fun _ => rfl, ?_, fun _ => rfl, ?_, ?_⟩
  · nofun
  · nofun
  · nofun

end

end GroupSound

/-! ## Sessions and groups -/

/-- Two states of one session in a run of the manager. -/
structure Member.Evolves (before after : Member) : Prop where
  group : after.group = before.group
  workspace : after.machine.core.session.workspace = before.machine.core.session.workspace
  close : before.machine.gate.close.Evolves after.machine.gate.close
  entry : before.machine.entry ≠ none → after.machine.entry ≠ none

theorem Member.Evolves.refl (member : Member) : member.Evolves member :=
  ⟨rfl, rfl, .refl _, id⟩

theorem Member.evolves_step {next : SessionMachine}
    {member : Member} (sound : SessionSound member.machine)
    (taken : member.machine.step action = some next) :
    member.Evolves { member with machine := next } :=
  ⟨rfl, sound.workspace_step taken, (sound.gate_evolves taken).close,
    (SessionSound.entry_step taken).1⟩

/-- No session is lost, and each moves forward. -/
def MembersEvolve (before after : List Member) : Prop :=
  ∀ (sid : Nat) (member : Member), before[sid]? = some member →
    ∃ later, after[sid]? = some later ∧ member.Evolves later

variable {member : Member} {before after : List Member} {more : GoError} {next : WorkspaceGroup}
  (sessions : List Member)

theorem MembersEvolve.refl : MembersEvolve sessions sessions :=
  fun _ member found => ⟨member, found, Member.Evolves.refl member⟩

theorem MembersEvolve.set {next : Member} {sessions : List Member}
    (held : sessions[sid]? = some member) (evolves : member.Evolves next) :
    MembersEvolve sessions (sessions.set sid next) := by
  intro other before known
  by_cases same : sid = other
  · subst same
    rw [held] at known
    cases known
    have inside := (List.getElem?_eq_some_iff.mp held).1
    exact ⟨next, getElem?_set_self inside, evolves⟩
  · refine ⟨before, ?_, Member.Evolves.refl before⟩
    rw [getElem?_set_ne same]
    exact known

theorem MembersEvolve.concat (fresh : Member) : MembersEvolve sessions (sessions ++ [fresh]) := by
  intro sid member found
  have inside := (List.getElem?_eq_some_iff.mp found).1
  refine ⟨member, ?_, Member.Evolves.refl member⟩
  rw [getElem?_append_left inside]
  exact found

/-- The session is closed and its close result is part of the result. -/
def Joined (sessions : List Member) (sid : Nat) (result : GoError) : Prop :=
  ∃ member, sessions[sid]? = some member ∧
    member.machine.gate.close.state = .finished ∧
    member.machine.gate.close.err ⊆ result

theorem Joined.evolve (joined : Joined before sid result)
    (evolves : MembersEvolve before after) : Joined after sid result := by
  obtain ⟨member, found, finished, included⟩ := joined
  obtain ⟨later, reached, forward⟩ := evolves sid member found
  have same := forward.close.finished finished
  exact ⟨later, reached, by rw [same]; exact finished, by rw [same]; exact included⟩

theorem Joined.mono {sessions : List Member}
    (joined : Joined sessions sid result) (grows : result ⊆ more) :
    Joined sessions sid more := by
  obtain ⟨member, found, finished, included⟩ := joined
  exact ⟨member, found, finished, List.Subset.trans included grows⟩

/-- How far the owner of a group has joined the results of its sessions. -/
structure Joining (sessions : List Member) (group : WorkspaceGroup) : Prop where
  closing :
    ∀ remaining result, group.worker = some (.closeSessions remaining result) →
      ∀ sid ∈ group.sessions, sid ∈ remaining ∨ Joined sessions sid result
  awaiting :
    ∀ current remaining result,
      group.worker = some (.awaitSession current remaining result) →
        ∀ sid ∈ group.sessions,
          sid = current ∨ sid ∈ remaining ∨ Joined sessions sid result
  finishing :
    ∀ result, group.worker = some (.finishClose result) →
      ∀ sid ∈ group.sessions, Joined sessions sid result
  finished :
    group.gate.close.state = .finished →
      ∀ sid ∈ group.sessions, Joined sessions sid group.gate.close.err

theorem Joining.evolve (joining : Joining before group) (evolves : MembersEvolve before after) :
    Joining after group := by
  constructor
  · intro remaining result working sid member
    rcases joining.closing remaining result working sid member with waits | joined
    · exact .inl waits
    · exact .inr (joined.evolve evolves)
  · intro current remaining result working sid member
    rcases joining.awaiting current remaining result working sid member with
      same | waits | joined
    · exact .inl same
    · exact .inr (.inl waits)
    · exact .inr (.inr (joined.evolve evolves))
  · intro result working sid member
    exact (joining.finishing result working sid member).evolve evolves
  · intro finished sid member
    exact (joining.finished finished sid member).evolve evolves

theorem Joining.of_idle (sound : GroupSound group) (idle : group.gate.close.state = .idle) :
    Joining sessions group := by
  have none := sound.idle idle
  refine ⟨?_, ?_, ?_, ?_⟩
  · intro remaining result working
    simp [none] at working
  · intro current remaining result working
    simp [none] at working
  · intro result working
    simp [none] at working
  · intro finished
    cases idle.symm.trans finished

/-- The group must be found by a close of its workspace. -/
def WorkspaceGroup.Live (group : WorkspaceGroup) : Prop :=
  group.gate.close.state ≠ .finished ∧
    (group.creations ≠ [] ∨ group.sessions ≠ [] ∨ group.gate.close.state ≠ .idle)

structure ManagerSound (mgr : Manager) : Prop where
  groups :
    ∀ (group : Nat) (found : WorkspaceGroup), mgr.pool[group]? = some found → GroupSound found
  members :
    ∀ (sid : Nat) (member : Member), mgr.sessions[sid]? = some member →
      SessionSound member.machine ∧
        ∃ found, mgr.pool[member.group]? = some found ∧
          found.workspace = member.machine.core.session.workspace
  registered :
    ∀ ws group, mgr.groups ws = some group →
      ∃ found, mgr.pool[group]? = some found ∧ found.workspace = ws
  current :
    ∀ (group : Nat) (found : WorkspaceGroup), mgr.pool[group]? = some found →
      found.Live → mgr.groups found.workspace = some group
  listed :
    ∀ (sid : Nat) (member : Member) (entry : SessionEntry),
      mgr.sessions[sid]? = some member → member.machine.entry = some entry →
        entry.listed = true →
          ∃ found, mgr.pool[member.group]? = some found ∧ sid ∈ found.sessions
  retained :
    ∀ (group : Nat) (found : WorkspaceGroup), mgr.pool[group]? = some found →
      ∀ sid ∈ found.sessions,
        ∃ member, mgr.sessions[sid]? = some member ∧ member.group = group ∧
          member.machine.entry ≠ none
  holders :
    ∀ (group : Nat) (found : WorkspaceGroup), mgr.pool[group]? = some found →
      ∀ pc ∈ found.creations, ∀ sid, pc.session = some sid →
        ∃ member, mgr.sessions[sid]? = some member ∧ member.group = group
  held :
    ∀ (sid : Nat) (member : Member), mgr.sessions[sid]? = some member →
      member.machine.entry = none → member.machine.core.session.plan ≠ none →
        ∃ found, mgr.pool[member.group]? = some found ∧
          ∃ pc ∈ found.creations, pc.session = some sid
  joining :
    ∀ (group : Nat) (found : WorkspaceGroup), mgr.pool[group]? = some found →
      Joining mgr.sessions found
  shut :
    mgr.closed = true → ∀ (group : Nat) (found : WorkspaceGroup),
      mgr.pool[group]? = some found → found.gate.close.state = .idle →
        found.creations = [] ∧ found.sessions = []

theorem managerSound_new (hooks : Nat) (materialize : Nat → GoError → RuntimeFailure) :
    ManagerSound (.new hooks materialize) := by
  constructor
  all_goals simp [Manager.new]

/-! ## Replacing one group -/

/-- What a step has to keep that replaces one group and changes the sessions. -/
structure Replaces (mgr : Manager) (group : Nat) (found : WorkspaceGroup)
    (sessions : List Member) (next : WorkspaceGroup) : Prop where
  evolves : MembersEvolve mgr.sessions sessions
  origin :
    ∀ (sid : Nat) (member : Member), sessions[sid]? = some member →
      SessionSound member.machine ∧
        ((∃ before, mgr.sessions[sid]? = some before ∧ before.Evolves member) ∨
          member.group = group ∧ member.machine.core.session.workspace = found.workspace)
  workspace : next.workspace = found.workspace
  sound : GroupSound next
  live : next.Live → mgr.groups found.workspace = some group
  listed :
    ∀ (sid : Nat) (member : Member) (entry : SessionEntry),
      sessions[sid]? = some member → member.machine.entry = some entry →
        entry.listed = true →
          (∃ before known, mgr.sessions[sid]? = some before ∧
            before.group = member.group ∧ before.machine.entry = some known ∧
            known.listed = true ∧
            (sid ∈ found.sessions → sid ∈ next.sessions)) ∨
          member.group = group ∧ sid ∈ next.sessions
  retained :
    ∀ sid ∈ next.sessions, sid ∈ found.sessions ∨
      ∃ member, sessions[sid]? = some member ∧ member.group = group ∧
        member.machine.entry ≠ none
  holders :
    ∀ pc ∈ next.creations, ∀ sid, pc.session = some sid →
      (∃ before ∈ found.creations, before.session = some sid) ∨
        ∃ member, sessions[sid]? = some member ∧ member.group = group
  held :
    ∀ (sid : Nat) (member : Member), sessions[sid]? = some member →
      member.machine.entry = none → member.machine.core.session.plan ≠ none →
        (∃ before, mgr.sessions[sid]? = some before ∧
          before.group = member.group ∧ before.machine.entry = none ∧
          before.machine.core.session.plan ≠ none ∧
          ∀ pc ∈ found.creations, pc.session = some sid →
            ∃ later ∈ next.creations, later.session = some sid) ∨
        member.group = group ∧ ∃ pc ∈ next.creations, pc.session = some sid
  joining : Joining sessions next
  shut :
    mgr.closed = true → next.gate.close.state = .idle →
      next.creations = [] ∧ next.sessions = []

theorem ManagerSound.update {group : Nat} {found : WorkspaceGroup}
    {sessions : List Member} (sound : ManagerSound mgr) (present : mgr.pool[group]? = some found)
    (replaces : Replaces mgr group found sessions next) :
    ManagerSound { mgr with
      sessions := sessions
      pool := mgr.pool.set group next } := by
  have there : (mgr.pool.set group next)[group]? = some next :=
    getElem?_set_self (List.getElem?_eq_some_iff.mp present).1
  -- Every group is still there; the replaced one is the new one.
  have keeps : ∀ (other : Nat) (before : WorkspaceGroup),
      mgr.pool[other]? = some before →
        ∃ after, (mgr.pool.set group next)[other]? = some after ∧
          after.workspace = before.workspace ∧
          (other = group ∧ after = next ∧ before = found ∨ after = before) := by
    intro other before known
    by_cases same : group = other
    · subst same
      rw [present] at known
      cases known
      exact ⟨next, there, replaces.workspace, .inl ⟨rfl, rfl, rfl⟩⟩
    · refine ⟨before, ?_, rfl, .inr rfl⟩
      rw [getElem?_set_ne same]
      exact known
  constructor
  · intro other after located
    rcases getElem?_set_cases located with ⟨_, rfl⟩ | ⟨_, before⟩
    · exact replaces.sound
    · exact sound.groups other after before
  · intro sid member located
    obtain ⟨machineSound, known⟩ := replaces.origin sid member located
    refine ⟨machineSound, ?_⟩
    rcases known with ⟨before, earlier, evolves⟩ | ⟨home, ws⟩
    · obtain ⟨old, oldPresent, oldWorkspace⟩ := (sound.members sid before earlier).2
      obtain ⟨after, afterPresent, sameWorkspace, _⟩ := keeps _ old oldPresent
      rw [evolves.group, evolves.workspace]
      exact ⟨after, afterPresent, sameWorkspace.trans oldWorkspace⟩
    · rw [home, ws]
      exact ⟨next, there, replaces.workspace⟩
  · intro ws other known
    obtain ⟨before, beforePresent, rfl⟩ := sound.registered ws other known
    obtain ⟨after, afterPresent, sameWorkspace, _⟩ := keeps other before beforePresent
    exact ⟨after, afterPresent, sameWorkspace⟩
  · intro other after located live
    rcases getElem?_set_cases located with ⟨rfl, rfl⟩ | ⟨_, before⟩
    · dsimp only
      rw [replaces.workspace]
      exact replaces.live live
    · exact sound.current other after before live
  · intro sid member entry located known isListed
    rcases replaces.listed sid member entry located known isListed with
      ⟨before, old, earlier, sameGroup, oldKnown, oldListed, stays⟩ | ⟨home, inside⟩
    · obtain ⟨oldGroup, oldPresent, oldInside⟩ :=
        sound.listed sid before old earlier oldKnown oldListed
      obtain ⟨after, afterPresent, _, replaced⟩ := keeps _ oldGroup oldPresent
      rw [← sameGroup]
      refine ⟨after, afterPresent, ?_⟩
      rcases replaced with ⟨_, rfl, rfl⟩ | rfl
      · exact stays oldInside
      · exact oldInside
    · rw [home]
      exact ⟨next, there, inside⟩
  · intro other after located sid inside
    have evolve : ∀ member, mgr.sessions[sid]? = some member →
        member.group = other → member.machine.entry ≠ none →
        ∃ later, sessions[sid]? = some later ∧ later.group = other ∧
          later.machine.entry ≠ none := by
      intro member earlier home published
      obtain ⟨later, reached, evolves⟩ := replaces.evolves sid member earlier
      exact ⟨later, reached, evolves.group.trans home, evolves.entry published⟩
    rcases getElem?_set_cases located with ⟨rfl, rfl⟩ | ⟨_, before⟩
    · rcases replaces.retained sid inside with old | fresh
      · obtain ⟨member, earlier, home, published⟩ :=
          sound.retained other found present sid old
        exact evolve member earlier home published
      · exact fresh
    · obtain ⟨member, earlier, home, published⟩ :=
        sound.retained other after before sid inside
      exact evolve member earlier home published
  · intro other after located pc member sid holds
    have evolve : ∀ member, mgr.sessions[sid]? = some member →
        member.group = other →
        ∃ later, sessions[sid]? = some later ∧ later.group = other := by
      intro member earlier home
      obtain ⟨later, reached, evolves⟩ := replaces.evolves sid member earlier
      exact ⟨later, reached, evolves.group.trans home⟩
    rcases getElem?_set_cases located with ⟨rfl, rfl⟩ | ⟨_, before⟩
    · rcases replaces.holders pc member sid holds with
        ⟨old, oldMember, oldHolds⟩ | fresh
      · obtain ⟨before, earlier, home⟩ :=
          sound.holders other found present old oldMember sid oldHolds
        exact evolve before earlier home
      · exact fresh
    · obtain ⟨known, earlier, home⟩ :=
        sound.holders other after before pc member sid holds
      exact evolve known earlier home
  · intro sid member located unpublished planned
    rcases replaces.held sid member located unpublished planned with
      ⟨before, earlier, sameGroup, oldUnpublished, oldPlanned, goesOn⟩ | ⟨home, holder⟩
    · obtain ⟨oldGroup, oldPresent, pc, pcMember, holds⟩ :=
        sound.held sid before earlier oldUnpublished oldPlanned
      obtain ⟨after, afterPresent, _, replaced⟩ := keeps _ oldGroup oldPresent
      rw [← sameGroup]
      refine ⟨after, afterPresent, ?_⟩
      rcases replaced with ⟨_, rfl, rfl⟩ | rfl
      · exact goesOn pc pcMember holds
      · exact ⟨pc, pcMember, holds⟩
    · rw [home]
      exact ⟨next, there, holder⟩
  · intro other after located
    rcases getElem?_set_cases located with ⟨_, rfl⟩ | ⟨_, before⟩
    · exact replaces.joining
    · exact (sound.joining other after before).evolve replaces.evolves
  · intro closed other after located idle
    rcases getElem?_set_cases located with ⟨_, rfl⟩ | ⟨_, before⟩
    · exact replaces.shut closed idle
    · exact sound.shut closed other after before idle

namespace ManagerSound

section

variable {found : WorkspaceGroup} {located : Manager} {index : Nat} {pc pc' : SessionCreatePC}
  (sound : ManagerSound mgr)
include sound

/-- Only a group changes.  A session leaves it when it is not listed any more, and a
creation gives up its session when that is published or its Plan is closed. -/
theorem setGroup {group : Nat} (present : mgr.pool[group]? = some found)
    (ws : next.workspace = found.workspace) (groupSound : GroupSound next)
    (live : next.Live → mgr.groups found.workspace = some group)
    (stays : ∀ sid ∈ found.sessions, sid ∈ next.sessions ∨
      ∀ member entry, mgr.sessions[sid]? = some member →
        member.machine.entry = some entry → entry.listed = false)
    (retained : ∀ sid ∈ next.sessions, sid ∈ found.sessions)
    (holders : ∀ pc ∈ next.creations, ∀ sid, pc.session = some sid →
      ∃ before ∈ found.creations, before.session = some sid)
    (held : ∀ pc ∈ found.creations, ∀ sid, pc.session = some sid →
      (∃ later ∈ next.creations, later.session = some sid) ∨
        ∀ member, mgr.sessions[sid]? = some member →
          member.machine.entry = none → member.machine.core.session.plan = none)
    (joining : Joining mgr.sessions next)
    (shut : mgr.closed = true → next.gate.close.state = .idle →
      next.creations = [] ∧ next.sessions = []) :
    ManagerSound (mgr.setGroup group next) := by
  refine sound.update present ⟨.refl _, ?_, ws, groupSound, live, ?_,
    fun sid inside => .inl (retained sid inside), ?_, ?_, joining, shut⟩
  · intro sid member located
    exact ⟨(sound.members sid member located).1,
      .inl ⟨member, located, Member.Evolves.refl member⟩⟩
  · intro sid member entry located known isListed
    refine .inl ⟨member, entry, located, rfl, known, isListed, ?_⟩
    intro inside
    rcases stays sid inside with there | unlisted
    · exact there
    · rw [unlisted member entry located known] at isListed
      cases isListed
  · intro pc member sid holds
    exact .inl (holders pc member sid holds)
  · intro sid member located unpublished planned
    refine .inl ⟨member, located, rfl, unpublished, planned, ?_⟩
    intro pc pcMember holds
    rcases held pc pcMember sid holds with there | closed
    · exact there
    · exact absurd (closed member located unpublished) planned

theorem setSession {m : SessionMachine}
    (located : mgr.sessions[sid]? = some member) (unpublishing : action ≠ .publish)
    (taken : member.machine.step action = some m) :
    ManagerSound (mgr.setSession sid { member with machine := m }) := by
  obtain ⟨machineSound, home, present, _⟩ := sound.members sid member located
  have evolves := MembersEvolve.set located (Member.evolves_step machineSound taken)
  obtain ⟨keeps, lists⟩ := (SessionSound.entry_step taken).2 unpublishing
  have replaces : Replaces mgr member.group home
      (mgr.sessions.set sid { member with machine := m }) home := by
    refine ⟨evolves, ?_, rfl, sound.groups _ home present, sound.current _ home present,
      ?_, fun _ inside => .inl inside, ?_, ?_, ?_, ?_⟩
    · intro other later known
      rcases getElem?_set_cases known with ⟨rfl, rfl⟩ | ⟨_, before⟩
      · exact ⟨machineSound.step taken,
          .inl ⟨member, located, Member.evolves_step machineSound taken⟩⟩
      · exact ⟨(sound.members other later before).1,
          .inl ⟨later, before, Member.Evolves.refl later⟩⟩
    · intro other later entry known published isListed
      rcases getElem?_set_cases known with ⟨rfl, rfl⟩ | ⟨_, before⟩
      · obtain ⟨old, oldKnown, oldListed⟩ := lists entry published isListed
        exact .inl ⟨member, old, located, rfl, oldKnown, oldListed, id⟩
      · exact .inl ⟨later, entry, before, rfl, published, isListed, id⟩
    · intro pc pcMember other holds
      exact .inl ⟨pc, pcMember, holds⟩
    · intro other later known unpublished planned
      rcases getElem?_set_cases known with ⟨rfl, rfl⟩ | ⟨_, before⟩
      · exact .inl ⟨member, located, rfl, keeps.1 unpublished,
          machineSound.plan_step taken planned,
          fun pc pcMember holds => ⟨pc, pcMember, holds⟩⟩
      · exact .inl ⟨later, before, rfl, unpublished, planned,
          fun pc pcMember holds => ⟨pc, pcMember, holds⟩⟩
    · exact (sound.joining _ home present).evolve evolves
    · exact fun closed idle => sound.shut closed _ home present idle
  have updated := sound.update present replaces
  have same : mgr.pool.set member.group home = mgr.pool := by
    obtain ⟨inside, rfl⟩ := List.getElem?_eq_some_iff.mp present
    exact set_getElem_self inside
  rw [same] at updated
  exact updated

theorem forget (ws group : Nat) (dead : ∀ found, mgr.pool[group]? = some found → ¬found.Live) :
    ManagerSound (mgr.forget ws group) := by
  unfold Manager.forget
  split
  next known =>
    refine ⟨sound.groups, sound.members, ?_, ?_, sound.listed, sound.retained,
      sound.holders, sound.held, sound.joining, sound.shut⟩
    · intro other pos located
      by_cases same : other = ws
      · subst same
        simp at located
      · dsimp only at located
        rw [Function.update_of_ne same] at located
        exact sound.registered other pos located
    · intro pos found present live
      have current := sound.current pos found present live
      by_cases same : found.workspace = ws
      · rw [same, known] at current
        cases current
        exact absurd live (dead found present)
      · dsimp only
        rw [Function.update_of_ne same]
        exact current
  · exact sound

theorem groupOf {group : Nat} (ws : Nat) (locates : mgr.groupOf ws = (located, group)) :
    ManagerSound located ∧ located.groups ws = some group ∧
      located.closed = mgr.closed ∧ located.sessions = mgr.sessions ∧
      (∃ fresh, located.pool = mgr.pool ++ fresh) := by
  unfold Manager.groupOf at locates
  cases known : mgr.groups ws with
  | some =>
    simp only [known] at locates
    cases locates
    exact ⟨sound, known, rfl, rfl, [], by simp⟩
  | none =>
    simp only [known] at locates
    cases locates
    refine ⟨?_, by simp, rfl, rfl, [.new ws], rfl⟩
    have older : ∀ {pos : Nat} {found : WorkspaceGroup},
        mgr.pool[pos]? = some found →
          (mgr.pool ++ [WorkspaceGroup.new ws])[pos]? = some found := by
      intro pos found present
      rw [getElem?_append_left (List.getElem?_eq_some_iff.mp present).1]
      exact present
    constructor
    · intro pos found present
      rcases getElem?_concat_cases present with ⟨_, rfl⟩ | before
      · exact GroupSound.new ws
      · exact sound.groups pos found before
    · intro sid member present
      obtain ⟨machineSound, home, homePresent, same⟩ :=
        sound.members sid member present
      exact ⟨machineSound, home, older homePresent, same⟩
    · intro other pos registered
      by_cases same : other = ws
      · subst same
        simp only [Function.update_self, Option.some.injEq] at registered
        subst registered
        exact ⟨.new other, by simp, rfl⟩
      dsimp only at registered
      rw [Function.update_of_ne same] at registered
      obtain ⟨found, present, located⟩ := sound.registered other pos registered
      exact ⟨found, older present, located⟩
    · intro pos found present live
      rcases getElem?_concat_cases present with ⟨_, rfl⟩ | before
      · exact absurd live.2 (by simp [WorkspaceGroup.new, Gate.new, CloseOperation.new])
      have current := sound.current pos found before live
      have different : found.workspace ≠ ws := by
        intro same
        rw [same, known] at current
        cases current
      dsimp only
      rw [Function.update_of_ne different]
      exact current
    · intro sid member entry present published isListed
      obtain ⟨found, foundPresent, inside⟩ :=
        sound.listed sid member entry present published isListed
      exact ⟨found, older foundPresent, inside⟩
    · intro pos found present sid inside
      rcases getElem?_concat_cases present with ⟨_, rfl⟩ | before
      · cases inside
      · exact sound.retained pos found before sid inside
    · intro pos found present pc member sid holds
      rcases getElem?_concat_cases present with ⟨_, rfl⟩ | before
      · cases member
      · exact sound.holders pos found before pc member sid holds
    · intro sid member present unpublished planned
      obtain ⟨found, foundPresent, holder⟩ :=
        sound.held sid member present unpublished planned
      exact ⟨found, older foundPresent, holder⟩
    · intro pos found present
      rcases getElem?_concat_cases present with ⟨_, rfl⟩ | before
      · exact Joining.of_idle _ (GroupSound.new ws) rfl
      · exact sound.joining pos found before
    · intro closed pos found present idle
      rcases getElem?_concat_cases present with ⟨_, rfl⟩ | before
      · exact ⟨rfl, rfl⟩
      · exact sound.shut closed pos found before idle

theorem goOn {group : Nat} (present : mgr.pool[group]? = some found)
    (creator : found.creations[index]? = some pc) (holds : pc'.session = pc.session ∨
      ∀ sid, pc.session = some sid → ∀ member,
        mgr.sessions[sid]? = some member → member.machine.entry = none →
          member.machine.core.session.plan = none)
    (fresh : pc'.session = pc.session ∨ pc'.session = none) :
    ManagerSound (mgr.setGroup group (found.goOn index pc')) := by
  have groupSound := sound.groups group found present
  have inside := (List.getElem?_eq_some_iff.mp creator).1
  have member := mem_of_getElem? creator
  have nonempty : found.creations ≠ [] := ne_nil_of_mem member
  have set : pc' ∈ found.creations.set index pc' := mem_set inside pc'
  refine sound.setGroup present rfl (groupSound.goOn index pc' found.sessions) ?_
    (fun _ inside => .inl inside) (fun _ inside => inside) ?_ ?_ ?_ ?_
  · intro live
    exact sound.current group found present ⟨live.1, .inl nonempty⟩
  · intro other otherMember sid otherHolds
    rcases mem_or_eq_of_mem_set otherMember with before | rfl
    · exact ⟨other, before, otherHolds⟩
    rcases fresh with same | none
    · exact ⟨pc, member, same ▸ otherHolds⟩
    · rw [none] at otherHolds
      cases otherHolds
  · intro other otherMember sid otherHolds
    rcases eq_or_mem_set creator otherMember pc' with rfl | stays
    · rcases holds with kept | closed
      · exact .inl ⟨pc', set, kept.trans otherHolds⟩
      · exact .inr (closed sid otherHolds)
    · exact .inl ⟨other, stays, otherHolds⟩
  · obtain ⟨closing, awaiting, finishing, finished⟩ := sound.joining group found present
    exact ⟨closing, awaiting, finishing, finished⟩
  · intro closed idle
    exact absurd (sound.shut closed group found present idle).1 nonempty

end

end ManagerSound

end Ferretd.Exec

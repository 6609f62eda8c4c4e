import Ferretd.Exec.SessionInvariant

/-!
# What the owner of the close operation can rely on

Behind `WaitForCreates` no creation is in flight, and leases are only given back.
-/

namespace Ferretd.Exec

open Library List

/-! ## Creations -/

/-- No creation is in flight once the owner has waited for them. -/
structure Quiesced (m : SessionMachine) : Prop where
  awaits :
    ∀ captured, m.worker = some (.awaitCreates captured) → m.gate.Awaits captured
  done : m.passed SessionClosePC.createsDone = true → m.creators = []

theorem quiesced_init (id ws hooks : Nat) (materialize : GoError → RuntimeFailure) :
    Quiesced (.init id ws hooks materialize) := by
  refine ⟨?_, fun _ => rfl⟩
  intro captured owner
  cases owner

variable {m other next : SessionMachine} {index : Nat} {input : RuntimeInput} {pc' : CreatePC}

namespace SessionMachine

theorem passed_of_idle (ownership : Ownership m)
    (idle : m.gate.close.state = .idle) (test : SessionClosePC → Bool) :
    m.passed test = false := by
  simp [passed, ownership.idle idle, CloseOperation.finished, idle]

end SessionMachine

namespace Quiesced

section

variable {creation : RuntimeCreation} {pc : SessionClosePC} (quiesced : Quiesced m)
include quiesced

theorem congr (worker : other.worker = m.worker) (gate : other.gate = m.gate)
    (creators : m.creators = [] → other.creators = []) : Quiesced other := by
  constructor
  · intro captured owner
    rw [gate]
    exact quiesced.awaits captured (worker ▸ owner)
  · intro passed
    rw [SessionMachine.passed_congr worker (congrArg Gate.close gate)] at passed
    exact creators (quiesced.done passed)

theorem not_passed (creator : m.creators[index]? = some creation) :
    m.passed SessionClosePC.createsDone = false := by
  by_contra passed
  have none := quiesced.done (by simpa using passed)
  simp [none] at creator

theorem not_collected (creator : m.creators[index]? = some creation) :
    m.passed SessionClosePC.collected = false := by
  have running := quiesced.not_passed creator
  by_contra passed
  rw [SessionMachine.passed_mono SessionClosePC.createsDone_of_collected
    (by simpa using passed)] at running
  cases running

theorem close (ownership : Ownership m) (ledger : Ledger m)
    (owner : m.worker = some pc) (move : CloseMove m pc next) :
    Quiesced next := by
  have creators := move.frame.1
  have before : pc.createsDone = true → m.creators = [] := by
    intro passed
    apply quiesced.done
    rw [SessionMachine.passed_of_worker owner]
    exact passed
  cases move with
  | capture waits =>
    have started := ownership.started_of_worker owner (by simp)
    have busy : m.gate.close.state ≠ .idle := by simp [started]
    refine ⟨?_, fun passed => by cases passed⟩
    intro known same
    cases same
    simp only [Gate.waitForCreates] at waits
    split at waits
    · cases waits
      exact Gate.awaits_waitForCreates ledger.gate busy
    · cases waits
  | @created captured signal =>
    have none := (quiesced.awaits captured owner).signalled signal
    rw [ledger.creating] at none
    refine ⟨fun known same => (by cases same), fun _ => ?_⟩
    exact eq_nil_of_length_eq_zero none
  | _ =>
    refine ⟨fun known same => (by cases same), fun _ => ?_⟩
    rw [creators]
    exact before rfl

theorem step (ownership : Ownership m) (ledger : Ledger m) {action : SessionAction}
    (taken : m.step action = some next) : Quiesced next := by
  have ownershipNext := ownership.step ledger.credible taken
  have ledgerNext := ledger.step ownership taken
  cases SessionEffect.of_step taken with
  | enroll active =>
    have idle := (ownership.entry _ active).1 rfl
    have none := ownership.idle idle
    refine ⟨?_, ?_⟩
    · intro captured owner
      simp [none] at owner
    intro passed
    rw [SessionMachine.passed_of_idle ownershipNext] at passed
    · cases passed
    · exact (congrArg CloseOperation.state (Gate.beginCreate_of_accepting idle).2.2).trans idle
  | addExecution =>
    refine quiesced.congr rfl rfl fun none => ?_
    simp [none]
  | create creator stepped =>
    have move := CreateMove.of_createStep
      (ledger.credible _ (mem_of_getElem? creator)) stepped
    refine quiesced.congr rfl move.frame.1 fun none => ?_
    simp [none]
  | finishCreate creator ended =>
    have running := quiesced.not_passed creator
    refine ⟨?_, ?_⟩
    · intro captured owner
      exact (quiesced.awaits captured owner).evolve (Gate.evolves_endCreate ended) ledgerNext.gate
    intro passed
    have before : m.passed SessionClosePC.createsDone = true := by
      refine Eq.trans (Eq.symm ?_) passed
      apply SessionMachine.passed_congr
      · rfl
      · exact (Gate.endCreate_ok ended).2.1
    simp [running] at before
  | @debugClose _ _ _ _ _ _ effect =>
    exact quiesced.congr rfl (SessionCore.applyDebugEffect_frame _ effect).1 id
  | beginClose =>
    exact ⟨fun captured owner => (by cases owner), fun passed => by cases passed⟩
  | close owner move =>
    exact quiesced.close ownership ledger owner move
  | _ => exact quiesced.congr rfl rfl id

end

end Quiesced

/-! ## Leases and Plans -/

/-- What the owner knows of the leases by the channel it has sampled: either none is
left, or that channel is still the one the last release will close. -/
def Session.LeasesAwait (session : Session) (captured : Option Nat) : Prop :=
  session.debugRuntimes = 0 ∨ captured ≠ none ∧ session.debugRuntimeDone = captured

namespace Session.LeasesAwait

variable {session : Session} {captured : Option Nat}

theorem sample (channel : session.LeaseChannel) :
    session.LeasesAwait session.debugRuntimeDone := by
  by_cases none : session.debugRuntimeDone = none
  · exact .inl (channel.1 none)
  · exact .inr ⟨none, rfl⟩

theorem releaseDebugRuntime (awaits : session.LeasesAwait captured) :
    session.releaseDebugRuntime.LeasesAwait captured := by
  unfold Session.releaseDebugRuntime
  split
  · exact awaits
  rename_i some
  split
  · exact .inl rfl
  · rcases awaits with none | sampled
    · exact absurd none some
    · exact .inr sampled

theorem signalled (awaits : session.LeasesAwait captured)
    (signal : Ferretd.signalled session.debugRuntimeDone captured = true) :
    session.debugRuntimes = 0 := by
  rcases awaits with none | ⟨some, same⟩
  · exact none
  cases captured with
  | none => exact absurd rfl some
  | some => simp [Ferretd.signalled, same] at signal

end Session.LeasesAwait

def SessionClosePC.sampled : SessionClosePC → Option (Option Nat)
  | .awaitCompile _ runtimeDone _ | .awaitRuntimes runtimeDone _ => some runtimeDone
  | _ => none

variable {captured : Option Nat} {effect : DebugEffect} {pc : SessionClosePC}

theorem SessionClosePC.createsDone_of_sampled (sampled : pc.sampled = some captured) :
    pc.createsDone = true := by
  cases pc <;> simp_all [SessionClosePC.sampled, SessionClosePC.createsDone]

theorem SessionClosePC.createsDone_of_released (passed : pc.released = true) :
    pc.createsDone = true :=
  createsDone_of_collected (collected_of_settled (settled_of_released passed))

structure Drained (m : SessionMachine) : Prop where
  sampled :
    ∀ pc captured, m.worker = some pc → pc.sampled = some captured →
      m.core.session.LeasesAwait captured
  released :
    m.passed SessionClosePC.released = true → m.core.session.debugRuntimes = 0
  taken :
    m.passed SessionClosePC.taken = true →
      m.core.session.plan = none ∧ m.core.session.debugPlan = none

theorem drained_init (id ws hooks : Nat) (materialize : GoError → RuntimeFailure) :
    Drained (.init id ws hooks materialize) := by
  refine ⟨?_, fun _ => rfl, ?_⟩
  · nofun
  · nofun

namespace Drained

variable {m next : SessionMachine}

variable {other : SessionMachine}

theorem congr (drained : Drained m) (worker : other.worker = m.worker)
    (close : other.gate.close = m.gate.close) (debugRuntimes :
      other.core.session.debugRuntimes = m.core.session.debugRuntimes)
    (debugRuntimeDone :
      other.core.session.debugRuntimeDone = m.core.session.debugRuntimeDone)
    (plan : other.core.session.plan = m.core.session.plan)
    (debugPlan : other.core.session.debugPlan = m.core.session.debugPlan) :
    Drained other := by
  constructor
  · intro pc captured owner sampled
    unfold Session.LeasesAwait
    rw [debugRuntimes, debugRuntimeDone]
    exact drained.sampled pc captured (worker ▸ owner) sampled
  · rw [SessionMachine.passed_congr worker close, debugRuntimes]
    exact drained.released
  · rw [SessionMachine.passed_congr worker close, plan, debugPlan]
    exact drained.taken

theorem of_not_passed (running : m.passed SessionClosePC.createsDone = false) : Drained m := by
  have contradiction : ∀ {test : SessionClosePC → Bool},
      (∀ {pc}, test pc = true → pc.createsDone = true) → ¬m.passed test = true := by
    intro test implied passed
    rw [SessionMachine.passed_mono implied passed] at running
    cases running
  constructor
  · intro pc captured owner sampled
    rw [SessionMachine.passed_of_worker owner,
      SessionClosePC.createsDone_of_sampled sampled] at running
    cases running
  · intro passed
    exact absurd passed (contradiction SessionClosePC.createsDone_of_released)
  · intro passed
    exact absurd passed (contradiction fun taken =>
      SessionClosePC.createsDone_of_released (SessionClosePC.released_of_taken taken))

theorem releaseLease (drained : Drained m) (worker : other.worker = m.worker)
    (session : other.core.session = m.core.session.releaseDebugRuntime) :
    Drained other := by
  obtain ⟨count, plan, debugPlan, children, _⟩ :=
    m.core.session.releaseDebugRuntime_spec
  have close : other.gate.close = m.gate.close := by
    rw [SessionMachine.gate, session, children]
  constructor
  · intro pc captured owner sampled
    rw [session]
    exact (drained.sampled pc captured (worker ▸ owner) sampled).releaseDebugRuntime
  · rw [SessionMachine.passed_congr worker close, session, count]
    intro passed
    rw [drained.released passed]
  · rw [SessionMachine.passed_congr worker close, session, plan, debugPlan]
    exact drained.taken

theorem close (drained : Drained m) (ledger : Ledger m) (owner : m.worker = some pc)
    (move : CloseMove m pc next) : Drained next := by
  have released : pc.released = true → m.core.session.debugRuntimes = 0 := by
    intro passed
    apply drained.released
    rw [SessionMachine.passed_of_worker owner]
    exact passed
  have taken : pc.taken = true →
      m.core.session.plan = none ∧ m.core.session.debugPlan = none := by
    intro passed
    apply drained.taken
    rw [SessionMachine.passed_of_worker owner]
    exact passed
  cases move with
  | sample =>
    refine ⟨?_, (by rintro ⟨⟩), fun passed => by cases passed⟩
    intro pc captured goesOn sampled
    cases goesOn
    cases sampled
    exact Session.LeasesAwait.sample ledger.leaseChannel
  | @compiled compileDone runtimeDone =>
    refine ⟨?_, (by rintro ⟨⟩), fun passed => by cases passed⟩
    intro pc captured goesOn sampled
    cases goesOn
    cases sampled
    exact drained.sampled _ runtimeDone owner rfl
  | @runtimes runtimeDone _ signal =>
    have awaits := drained.sampled _ runtimeDone owner rfl
    refine ⟨?_, fun _ => awaits.signalled signal, fun passed => by cases passed⟩
    intro pc captured goesOn sampled
    cases goesOn
    cases sampled
  | take =>
    refine ⟨?_, fun _ => released rfl, fun _ => ⟨rfl, rfl⟩⟩
    intro pc captured goesOn sampled
    cases goesOn
    cases sampled
  | @closePlan _ _ plan debugPlan =>
    obtain ⟨session, _⟩ := m.closeTaken_frame plan
    refine ⟨?_, fun _ => ?_, fun _ => ?_⟩
    · intro pc captured goesOn sampled
      cases goesOn
      cases sampled
    · exact (congrArg Session.debugRuntimes session).trans (released rfl)
    · exact ⟨(congrArg Session.plan session).trans (taken rfl).1,
        (congrArg Session.debugPlan session).trans (taken rfl).2⟩
  | @closeDebugPlan _ _ debugPlan =>
    obtain ⟨session, _⟩ := m.closeTaken_frame debugPlan
    refine ⟨?_, fun _ => ?_, fun _ => ?_⟩
    · intro pc captured goesOn sampled
      cases goesOn
      cases sampled
    · exact (congrArg Session.debugRuntimes session).trans (released rfl)
    · exact ⟨(congrArg Session.plan session).trans (taken rfl).1,
        (congrArg Session.debugPlan session).trans (taken rfl).2⟩
  | finish =>
    refine ⟨?_, fun _ => released rfl, fun _ => taken rfl⟩
    intro pc captured goesOn sampled
    cases goesOn
    cases sampled
  | remove =>
    refine ⟨?_, fun _ => released rfl, fun _ => taken rfl⟩
    intro pc captured goesOn
    cases goesOn
  | _ =>
    refine ⟨?_, (by rintro ⟨⟩), fun passed => by cases passed⟩
    intro pc captured goesOn sampled
    cases goesOn
    cases sampled

theorem step (drained : Drained m) (quiesced : Quiesced m)
    (ownership : Ownership m) (ledger : Ledger m)
    {action : SessionAction} (taken : m.step action = some next) :
    Drained next := by
  cases SessionEffect.of_step taken with
  | discard =>
    refine ⟨drained.sampled, drained.released, fun passed => ?_⟩
    exact ⟨rfl, (drained.taken passed).2⟩
  | enroll active =>
    have idle := (ownership.entry _ active).1 rfl
    exact drained.congr rfl (Gate.beginCreate_of_accepting idle).2.2 rfl rfl rfl rfl
  | create creator stepped =>
    have move := CreateMove.of_createStep
      (ledger.credible _ (mem_of_getElem? creator)) stepped
    apply of_not_passed
    rw [← quiesced.not_passed creator]
    apply SessionMachine.passed_congr
    · rfl
    · exact congrArg Gate.close move.frame.1
  | finishCreate _ ended =>
    exact drained.congr rfl (Gate.endCreate_ok ended).2.1 rfl rfl rfl rfl
  | @debugClose _ _ _ _ _ _ effect =>
    cases effect with
    | none | closeDebugger => exact drained.congr rfl rfl rfl rfl rfl rfl
    | releaseLease => exact drained.releaseLease rfl rfl
  | beginClose => exact of_not_passed rfl
  | close owner move => exact drained.close ledger owner move
  | _ => exact drained.congr rfl rfl rfl rfl rfl rfl

end Drained

/-! ## Which Plan is leased -/

def CreatePC.target : CreatePC → Option Nat
  | .newDebugSession plan | .closeDebugger plan _ _ | .release plan _ => some plan
  | _ => none

/-- Every lease is one on the current debug Plan, and a published session keeps its
normal Plan until the owner takes it. -/
structure Targets (m : SessionMachine) : Prop where
  creators :
    ∀ creation ∈ m.creators, ∀ plan, creation.pc.target = some plan →
      m.core.session.debugPlan = some plan
  debugs :
    ∀ debug ∈ m.core.debugs, debug.released = false →
      ∃ plan, debug.runtime.target.plan = some plan ∧ m.core.session.debugPlan = some plan
  origin : ∀ plan, m.core.session.plan = some plan → plan = 0
  normal :
    m.entry ≠ none → m.passed SessionClosePC.taken = false →
      m.core.session.plan = some 0

theorem targets_init (id ws hooks : Nat) (materialize : GoError → RuntimeFailure) :
    Targets (.init id ws hooks materialize) := by
  refine ⟨?_, ?_, ?_, ?_⟩
  · nofun
  · nofun
  · intro plan held
    exact (Option.some.inj held).symm
  · intro published
    exact absurd rfl published

theorem CreateMove.target {core next : SessionCore}
    {pc : CreatePC} (move : CreateMove core input pc next pc')
    (uncompiled : pc.compiling = 1 → core.session.debugPlan = none)
    (held : ∀ plan, pc.target = some plan → core.session.debugPlan = some plan) :
    (∀ plan, core.session.debugPlan = some plan →
        next.session.debugPlan = some plan) ∧
      (∀ plan, pc'.target = some plan → next.session.debugPlan = some plan) ∧
      ∀ debug ∈ next.debugs, debug ∈ core.debugs ∨
        ∃ plan, debug.runtime.target.plan = some plan ∧
          next.session.debugPlan = some plan := by
  cases move with
  | leased stored =>
    have debugPlan := (core.session.newDebugRuntimeTargetLocked_spec).2.2.1
    refine ⟨?_, ?_, fun debug member => .inl member⟩
    · intro other known
      exact debugPlan.trans known
    · intro other target
      exact debugPlan.trans (stored.trans target)
  | @stored plan =>
    have absent := uncompiled rfl
    have debugPlan := ({ core.session with
      debugPlan := some plan }.newDebugRuntimeTargetLocked_spec).2.2.1
    refine ⟨?_, fun other target => debugPlan.trans target, fun debug member => .inl member⟩
    intro other known
    simp [absent] at known
  | @debugger plan =>
    refine ⟨fun other known => known, fun other target => (by cases target), ?_⟩
    intro debug member
    rcases mem_append.mp member with before | fresh
    · exact .inl before
    · rw [mem_singleton.mp fresh]
      exact .inr ⟨plan, rfl, held plan rfl⟩
  | noDebugger | debuggerFailed | debuggerClosed =>
    exact ⟨fun other known => known, held, fun debug member => .inl member⟩
  | released =>
    have debugPlan := core.session.releaseDebugRuntime_spec.2.2.1
    exact ⟨fun other known => debugPlan.trans known, fun other target => (by cases target),
      fun debug member => .inl member⟩
  | _ =>
    exact ⟨fun other known => known, fun other target => (by cases target),
      fun debug member => .inl member⟩

theorem DebugMove.target {debug next : DebugRuntime} {pc pc' : DebugClosePC}
    (move : DebugMove debug pc next pc' effect) :
    next.runtime.target = debug.runtime.target ∧
      (next.released = false → debug.released = false) := by
  cases move with
  | cancel =>
    refine ⟨?_, id⟩
    simp only [ExecutionRuntime.cancel]
    split <;> rfl
  | release unreleased => exact ⟨rfl, fun _ => unreleased⟩
  | _ => exact ⟨rfl, id⟩

namespace Targets

theorem congr (targets : Targets m) (worker : other.worker = m.worker)
    (close : other.gate.close = m.gate.close) (entry : other.entry = m.entry)
    (creators : ∀ creation ∈ other.creators, ∀ plan,
      creation.pc.target = some plan → creation ∈ m.creators)
    (debugs : ∀ debug ∈ other.core.debugs, debug.released = false →
      ∃ before ∈ m.core.debugs, before.released = false ∧
        debug.runtime.target = before.runtime.target)
    (plan : other.core.session.plan = m.core.session.plan)
    (debugPlan : other.core.session.debugPlan = m.core.session.debugPlan) :
    Targets other := by
  constructor
  · intro creation member leased target
    rw [debugPlan]
    exact targets.creators creation (creators creation member leased target) leased target
  · intro debug member unreleased
    obtain ⟨before, known, held, same⟩ := debugs debug member unreleased
    rw [same, debugPlan]
    exact targets.debugs before known held
  · rw [plan]
    exact targets.origin
  · rw [SessionMachine.passed_congr worker close, plan, entry]
    exact targets.normal

variable {core : SessionCore} {debug : Nat} {runtime : DebugRuntime} {result : GoError}

theorem create (targets : Targets m) (ledger : Ledger m) {pc : CreatePC}
    (creator : m.creators[index]? = some ⟨input, pc⟩) (move : CreateMove m.core input pc core pc') :
    Targets { m with
      core := core
      creators := m.creators.set index ⟨input, pc'⟩ } := by
  have member := mem_of_getElem? creator
  have uncompiled : pc.compiling = 1 → m.core.session.debugPlan = none := by
    intro one
    have compiles := weight_le_tally (fun creation => creation.pc.compiling) member
    rw [ledger.compiling] at compiles
    apply ledger.compilation.uncompiled
    by_contra idle
    simp [one, Session.compiling, idle] at compiles
  obtain ⟨children, plan⟩ := move.frame
  obtain ⟨kept, held, debugs⟩ := move.target uncompiled (targets.creators _ member)
  constructor
  · intro creation present leased target
    rcases mem_or_eq_of_mem_set present with before | rfl
    · exact kept leased (targets.creators creation before leased target)
    · exact held leased target
  · intro debug present unreleased
    rcases debugs debug present with before | fresh
    · obtain ⟨leased, target, current⟩ := targets.debugs debug before unreleased
      exact ⟨leased, target, kept leased current⟩
    · exact fresh
  · intro other known
    exact targets.origin other (plan.symm.trans known)
  · intro published running
    refine plan.trans (targets.normal published ?_)
    refine Eq.trans (Eq.symm ?_) running
    apply SessionMachine.passed_congr
    · rfl
    · exact congrArg Gate.close children

theorem setDebug (targets : Targets m) (closed : DebugRuntime)
    (found : m.core.debugs[debug]? = some runtime)
    (target : closed.runtime.target = runtime.runtime.target)
    (unreleased : closed.released = false → runtime.released = false)
    (worker : other.worker = m.worker) (close : other.gate.close = m.gate.close)
    (entry : other.entry = m.entry) (creators : other.creators = m.creators)
    (debugs : other.core.debugs = m.core.debugs.set debug closed)
    (plan : other.core.session.plan = m.core.session.plan)
    (debugPlan : other.core.session.debugPlan = m.core.session.debugPlan) :
    Targets other := by
  refine targets.congr worker close entry ?_ ?_ plan debugPlan
  · intro creation member _ _
    exact creators ▸ member
  intro changed member held
  rw [debugs] at member
  rcases mem_or_eq_of_mem_set member with before | rfl
  · exact ⟨changed, before, held, rfl⟩
  · exact ⟨runtime, mem_of_getElem? found, unreleased held, target⟩

theorem take (quiesced : Quiesced m) (drained : Drained m)
    (ledger : Ledger m) (owner : m.worker = some (.takePlans result)) :
    Targets { m with
      core := { m.core with
        session := { m.core.session with plan := none, debugPlan := none } }
      worker := some (.closePlan m.core.session.plan m.core.session.debugPlan result) } := by
  have passed : ∀ test : SessionClosePC → Bool, test (.takePlans result) = true →
      m.passed test = true := by
    intro test behind
    rw [SessionMachine.passed_of_worker owner]
    exact behind
  have creators := quiesced.done (passed _ rfl)
  have leases := ledger.leases
  rw [drained.released (passed _ rfl)] at leases
  refine ⟨?_, ?_, ?_, ?_⟩
  · intro creation member
    simp [creators] at member
  · intro debug member unreleased
    have leased := weight_le_tally DebugRuntime.leased member
    simp [DebugRuntime.leased, unreleased] at leased
    omega
  · simp
  · rintro _ ⟨⟩

section

variable {action : SessionAction} (targets : Targets m) (quiesced : Quiesced m)
  (drained : Drained m)
include targets quiesced drained

theorem close (ownership : Ownership m) (ledger : Ledger m) (owner : m.worker = some pc)
    (move : CloseMove m pc next) : Targets next := by
  have normal : pc.taken = false → m.entry ≠ none → m.core.session.plan = some 0 := by
    intro running published
    apply targets.normal published
    rw [SessionMachine.passed_of_worker owner]
    exact running
  cases move with
  | take => exact take quiesced drained ledger owner
  | @closePlan _ _ plan =>
    cases plan with
    | none | some =>
      exact ⟨targets.creators, targets.debugs, targets.origin, fun _ running => by cases running⟩
  | @closeDebugPlan _ _ debugPlan =>
    cases debugPlan with
    | none | some =>
      exact ⟨targets.creators, targets.debugs, targets.origin, fun _ running => by cases running⟩
  | finish =>
    exact ⟨targets.creators, targets.debugs, targets.origin, fun _ running => by cases running⟩
  | remove =>
    have finished := ownership.finished_of_worker owner
    refine ⟨targets.creators, targets.debugs, targets.origin, fun _ running => ?_⟩
    have unfinished : m.gate.close.finished = false := running
    simp [CloseOperation.finished, finished] at unfinished
  | _ =>
    exact ⟨targets.creators, targets.debugs, targets.origin,
      fun published _ => normal rfl published⟩

theorem step (ownership : Ownership m) (ledger : Ledger m) (taken : m.step action = some next) :
    Targets next := by
  have sameDebugs : ∀ debug ∈ m.core.debugs, debug.released = false →
      ∃ before ∈ m.core.debugs, before.released = false ∧
        debug.runtime.target = before.runtime.target :=
    fun debug member unreleased => ⟨debug, member, unreleased, rfl⟩
  cases SessionEffect.of_step taken with
  | keep => exact targets
  | @publish plan _ held =>
    refine ⟨targets.creators, targets.debugs, targets.origin, fun _ _ => ?_⟩
    rw [← targets.origin plan held]
    exact held
  | discard unpublished =>
    refine ⟨targets.creators, targets.debugs, ?_, ?_⟩
    · nofun
    · intro published
      exact absurd unpublished published
  | @enroll debug _ _ active =>
    have idle := (ownership.entry _ active).1 rfl
    refine targets.congr rfl (Gate.beginCreate_of_accepting idle).2.2 rfl ?_ sameDebugs
      rfl rfl
    intro creation member plan target
    rcases mem_append.mp member with before | fresh
    · exact before
    · rw [mem_singleton.mp fresh] at target
      cases debug <;> cases target
  | addExecution =>
    refine targets.congr rfl rfl rfl ?_ sameDebugs rfl rfl
    intro creation member plan target
    rcases mem_or_eq_of_mem_set member with before | rfl
    · exact before
    · cases target
  | create creator stepped =>
    exact targets.create ledger creator (.of_createStep
      (ledger.credible _ (mem_of_getElem? creator)) stepped)
  | finishCreate _ ended =>
    exact targets.congr rfl (Gate.endCreate_ok ended).2.1 rfl
      (fun creation member _ _ => mem_of_mem_eraseIdx member) sameDebugs rfl rfl
  | @beginDebugClose _ runtime found =>
    exact targets.setDebug { runtime with closers := runtime.closers ++ [.cancel] }
      found rfl id rfl rfl rfl rfl rfl rfl rfl
  | @debugClose debug runtime index _ closed pc' effect _ found _ move =>
    obtain ⟨target, unreleased⟩ := move.target
    obtain ⟨children, plan, debugPlan, debugs⟩ := SessionCore.applyDebugEffect_frame
      { m.core with
        debugs := m.core.debugs.set debug
          { closed with closers := runtime.closers.set index pc' } } effect
    exact targets.setDebug { closed with closers := runtime.closers.set index pc' }
      found target unreleased rfl (congrArg Gate.close children) rfl rfl debugs plan
      debugPlan
  | @beginClose entry published active =>
    have idle := (ownership.entry entry published).1 active
    refine ⟨targets.creators, targets.debugs, targets.origin, fun _ _ => ?_⟩
    refine targets.normal ?_ (SessionMachine.passed_of_idle ownership idle _)
    simp [published]
  | close owner move =>
    exact targets.close quiesced drained ownership ledger owner move
  | _ =>
    exact targets.congr rfl rfl rfl (fun _ member _ _ => member) sameDebugs rfl rfl

end

end Targets

end Ferretd.Exec

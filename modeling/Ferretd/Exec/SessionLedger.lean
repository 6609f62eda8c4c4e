import Ferretd.Exec.SessionEffects

/-!
# Who holds what

Every Plan and every debugger session that the runtime hands out is at any time either held
by exactly one place or closed exactly once.
-/

namespace Ferretd.Exec

open Library SessionCore List

/-! ## Holders -/

def holds (slot : Option Nat) (object : Nat) : Nat :=
  if slot = some object then 1 else 0

@[simp]
theorem holds_none (object : Nat) : holds none object = 0 :=
  rfl

def handed (count object : Nat) : Nat :=
  if object < count then 1 else 0

theorem holds_fresh (count object : Nat) :
    handed count object + holds (some count) object = handed (count + 1) object := by
  unfold holds handed
  split <;> split <;> split <;> simp_all <;> omega

namespace Objects

theorem planCloses_closePlan (objects : Objects) (closed plan : Nat) :
    (objects.closePlan closed).planCloses plan =
      objects.planCloses plan + holds (some closed) plan := by
  by_cases same : closed = plan
  · subst same
    simp [closePlan, holds]
  · have other : plan ≠ closed := fun equal => same equal.symm
    simp [closePlan, holds, same, Function.update_of_ne other]

theorem debuggerCloses_closeDebugger (objects : Objects) (closed dbg : Nat) :
    (objects.closeDebugger closed).debuggerCloses dbg =
      objects.debuggerCloses dbg + holds (some closed) dbg := by
  by_cases same : closed = dbg
  · subst same
    simp [closeDebugger, holds]
  · have other : dbg ≠ closed := fun equal => same equal.symm
    simp [closeDebugger, holds, same, Function.update_of_ne other]

end Objects

namespace CreatePC

def holdsPlan (plan : Nat) : CreatePC → Nat
  | .commitCompile held _ => holds held plan
  | .closeCompiled held _ _ => holds (some held) plan
  | _ => 0

def holdsDebugger (dbg : Nat) : CreatePC → Nat
  | .closeDebugger _ held _ => holds (some held) dbg
  | _ => 0

def leased : CreatePC → Nat
  | .newDebugSession _ | .closeDebugger _ _ _ | .release _ _ => 1
  | _ => 0

def compiling : CreatePC → Nat
  | .compile | .commitCompile _ _ => 1
  | _ => 0

end CreatePC

namespace DebugRuntime

def holdsDebugger (dbg : Nat) (debug : DebugRuntime) : Nat :=
  if debug.runtime.closeOnce = .idle then holds debug.runtime.session dbg else 0

def leased (debug : DebugRuntime) : Nat :=
  if debug.released then 0 else 1

end DebugRuntime

def SessionClosePC.holdsPlan (plan : Nat) : SessionClosePC → Nat
  | .closePlan normal debug _ => holds normal plan + holds debug plan
  | .closeDebugPlan debug _ => holds debug plan
  | _ => 0

def Session.holdsPlan (session : Session) (plan : Nat) : Nat :=
  holds session.plan plan + holds session.debugPlan plan

/-! ## Leases -/

namespace Session

variable (session : Session)

theorem newDebugRuntimeTargetLocked_spec :
    session.newDebugRuntimeTargetLocked.debugRuntimes = session.debugRuntimes + 1 ∧
      session.newDebugRuntimeTargetLocked.plan = session.plan ∧
      session.newDebugRuntimeTargetLocked.debugPlan = session.debugPlan ∧
      session.newDebugRuntimeTargetLocked.children = session.children ∧
      session.newDebugRuntimeTargetLocked.debugCompiling = session.debugCompiling ∧
      session.newDebugRuntimeTargetLocked.debugCompileDone = session.debugCompileDone := by
  unfold newDebugRuntimeTargetLocked
  split
  next none =>
    rw [none]
    exact ⟨rfl, rfl, rfl, rfl, rfl, rfl⟩
  · exact ⟨rfl, rfl, rfl, rfl, rfl, rfl⟩

/-- The channel of the leases exists exactly while there are leases. -/
def LeaseChannel : Prop :=
  session.debugRuntimeDone = none ↔ session.debugRuntimes = 0

variable {session}

theorem LeaseChannel.newDebugRuntimeTargetLocked (channel : session.LeaseChannel) :
    session.newDebugRuntimeTargetLocked.LeaseChannel := by
  unfold LeaseChannel at channel ⊢
  unfold Session.newDebugRuntimeTargetLocked
  split
  · simp
  next some =>
    simp [channel, some]

theorem releaseDebugRuntime_spec (session : Session) :
    session.releaseDebugRuntime.debugRuntimes = session.debugRuntimes - 1 ∧
      session.releaseDebugRuntime.plan = session.plan ∧
      session.releaseDebugRuntime.debugPlan = session.debugPlan ∧
      session.releaseDebugRuntime.children = session.children ∧
      session.releaseDebugRuntime.debugCompiling = session.debugCompiling ∧
      session.releaseDebugRuntime.debugCompileDone = session.debugCompileDone := by
  unfold releaseDebugRuntime
  split
  next none =>
    rw [none]
    exact ⟨rfl, rfl, rfl, rfl, rfl, rfl⟩
  split
  next one =>
    rw [one]
    exact ⟨rfl, rfl, rfl, rfl, rfl, rfl⟩
  · exact ⟨rfl, rfl, rfl, rfl, rfl, rfl⟩

theorem LeaseChannel.releaseDebugRuntime (channel : session.LeaseChannel) :
    session.releaseDebugRuntime.LeaseChannel := by
  unfold LeaseChannel at channel ⊢
  unfold Session.releaseDebugRuntime
  split
  · exact channel
  split
  · simp
  next some many =>
    simp only [channel]
    omega

end Session

/-! ## Debug runtimes -/

/-- What the callers of `Close` know of the `closeOnce` they have passed. -/
def DebugClosePC.Consistent (once : Once) : DebugClosePC → Prop
  | .cancel | .enterClose => True
  | .returnClose => once ≠ .idle
  | .release _ | .returned _ => once = .done

/-- The lease of a debug runtime is released only after the close attempt of its
debugger session has returned. -/
structure DebugRuntime.Sound (debug : DebugRuntime) : Prop where
  released : debug.released = true → debug.runtime.closeOnce = .done
  closers : ∀ pc ∈ debug.closers, pc.Consistent debug.runtime.closeOnce

theorem DebugClosePC.consistent_done (pc : DebugClosePC) : pc.Consistent .done := by
  cases pc with
  | cancel | enterClose => trivial
  | returnClose => nofun
  | release | returned => rfl

variable {index : Nat} {pc pc' : DebugClosePC}

theorem DebugClosePC.Consistent.of_idle (consistent : pc.Consistent .idle) (once : Once) :
    pc.Consistent once := by
  cases pc with
  | cancel | enterClose => trivial
  | returnClose => exact absurd rfl consistent
  | release | returned => cases consistent

variable {debug next : DebugRuntime} {effect : DebugEffect}

theorem DebugMove.sound (sound : debug.Sound)
    (closer : debug.closers[index]? = some pc) (move : DebugMove debug pc next pc' effect) :
    { next with closers := debug.closers.set index pc' }.Sound := by
  have consistent := sound.closers pc (mem_of_getElem? closer)
  have others : ∀ {once : Once}, pc'.Consistent once →
      (∀ other ∈ debug.closers, other.Consistent once) →
      ∀ other ∈ debug.closers.set index pc', other.Consistent once := by
    intro once moved kept other member
    rcases mem_or_eq_of_mem_set member with before | rfl
    · exact kept other before
    · exact moved
  cases move with
  | cancel =>
    have once := (debug.runtime.cancel_session).2.1
    refine ⟨?_, ?_⟩
    · dsimp only
      rw [once]
      exact sound.released
    · dsimp only
      rw [once]
      exact others trivial sound.closers
  | enter idle =>
    refine ⟨?_, others (by simp [DebugClosePC.Consistent]) ?_⟩
    · intro released
      have done := sound.released released
      simp [idle] at done
    intro other member
    have known := sound.closers other member
    rw [idle] at known
    exact known.of_idle _
  | enterEmpty | returned =>
    exact ⟨fun _ => rfl, others rfl fun other _ => other.consistent_done⟩
  | enterDone done => exact ⟨sound.released, others done sound.closers⟩
  | release => exact ⟨fun _ => consistent, others consistent sound.closers⟩
  | releaseAgain released => exact ⟨sound.released, others consistent sound.closers⟩

/-- Calls of a debugger's `Close` in an effect. -/
def DebugEffect.closes (dbg : Nat) : DebugEffect → Nat
  | .closeDebugger closed => holds (some closed) dbg
  | _ => 0

def DebugEffect.releases : DebugEffect → Nat
  | .releaseLease => 1
  | _ => 0

theorem DebugMove.holdings (consistent : pc.Consistent debug.runtime.closeOnce)
    (move : DebugMove debug pc next pc' effect) (dbg : Nat) :
    next.holdsDebugger dbg + effect.closes dbg =
        debug.holdsDebugger dbg ∧
      next.leased + effect.releases = debug.leased := by
  cases move with
  | cancel =>
    obtain ⟨session, once, _⟩ := debug.runtime.cancel_session
    exact ⟨by simp [DebugRuntime.holdsDebugger, session, once, DebugEffect.closes], rfl⟩
  | enter idle stored =>
    refine ⟨?_, rfl⟩
    simp [DebugRuntime.holdsDebugger, idle, stored, DebugEffect.closes]
  | enterEmpty idle absent =>
    refine ⟨?_, rfl⟩
    simp [DebugRuntime.holdsDebugger, idle, absent, DebugEffect.closes]
  | enterDone | releaseAgain => exact ⟨rfl, rfl⟩
  | returned =>
    have passed : debug.runtime.closeOnce ≠ .idle := consistent
    refine ⟨?_, rfl⟩
    simp [DebugRuntime.holdsDebugger, ExecutionRuntime.returnClose, passed, DebugEffect.closes]
  | release unreleased =>
    refine ⟨rfl, ?_⟩
    simp [DebugRuntime.leased, unreleased, DebugEffect.releases]

/-! ## Conservation in one creation -/

structure Session.Compilation (session : Session) : Prop where
  channel : session.debugCompileDone = none ↔ session.debugCompiling = false
  uncompiled : session.debugCompiling = true → session.debugPlan = none

def Session.compiling (session : Session) : Nat :=
  if session.debugCompiling then 1 else 0

namespace CreateMove

variable {core next : SessionCore} {input : RuntimeInput} {pc pc' : CreatePC}

section

variable (move : CreateMove core input pc next pc')
include move

theorem plans (uncompiled : pc.compiling = 1 → core.session.debugPlan = none) (plan : Nat) :
    next.session.holdsPlan plan + pc'.holdsPlan plan +
        next.objects.planCloses plan +
        handed core.objects.plans plan =
      core.session.holdsPlan plan + pc.holdsPlan plan +
        core.objects.planCloses plan +
        handed next.objects.plans plan := by
  cases move with
  | leased =>
    obtain ⟨_, normal, debug, _⟩ := core.session.newDebugRuntimeTargetLocked_spec
    simp [Session.holdsPlan, CreatePC.holdsPlan, normal, debug]
  | compiled =>
    have fresh := holds_fresh core.objects.plans plan
    simp only [CreatePC.holdsPlan]
    omega
  | @stored held =>
    have absent := uncompiled rfl
    obtain ⟨_, normal, debug, _⟩ :=
      { core.session with debugPlan := some held }.newDebugRuntimeTargetLocked_spec
    simp only [Session.holdsPlan, CreatePC.holdsPlan, normal, debug, absent, holds_none]
    omega
  | @planClosed held =>
    have closes := core.objects.planCloses_closePlan held plan
    have same : (core.objects.closePlan held).plans = core.objects.plans := rfl
    simp only [CreatePC.holdsPlan, closes, same]
    omega
  | released =>
    obtain ⟨_, normal, debug, _⟩ := core.session.releaseDebugRuntime_spec
    simp [Session.holdsPlan, CreatePC.holdsPlan, normal, debug]
  | debuggerClosed => rfl
  | _ =>
    simp [Session.holdsPlan, CreatePC.holdsPlan]

theorem debuggers (dbg : Nat) :
    tally (DebugRuntime.holdsDebugger dbg) next.debugs +
        pc'.holdsDebugger dbg + next.objects.debuggerCloses dbg +
        handed core.objects.debuggers dbg =
      tally (DebugRuntime.holdsDebugger dbg) core.debugs +
        pc.holdsDebugger dbg + core.objects.debuggerCloses dbg +
        handed next.objects.debuggers dbg := by
  have fresh := holds_fresh core.objects.debuggers dbg
  cases move with
  | debuggerFailed =>
    simp only [CreatePC.holdsDebugger]
    omega
  | @debugger plan =>
    have held :
        DebugRuntime.holdsDebugger dbg
          ⟨{ newExecutionRuntime ⟨core.session.id, some plan⟩ input core.session.materialize with
              session := some core.objects.debuggers }, false, []⟩ =
          holds (some core.objects.debuggers) dbg :=
      rfl
    simp only [CreatePC.holdsDebugger, tally_concat, held]
    omega
  | @debuggerClosed leasedPlan held =>
    have closes := core.objects.debuggerCloses_closeDebugger held dbg
    have same : (core.objects.closeDebugger held).debuggers = core.objects.debuggers :=
      rfl
    simp only [CreatePC.holdsDebugger, closes, same]
    omega
  | planClosed => rfl
  | _ =>
    simp [CreatePC.holdsDebugger]

theorem leases (held : pc.leased ≤ core.session.debugRuntimes) :
    next.session.debugRuntimes + pc.leased +
        tally DebugRuntime.leased core.debugs =
      core.session.debugRuntimes + pc'.leased + tally DebugRuntime.leased next.debugs := by
  cases move with
  | leased =>
    obtain ⟨count, _⟩ := core.session.newDebugRuntimeTargetLocked_spec
    simp only [CreatePC.leased, count, Nat.add_zero]
  | @stored plan =>
    obtain ⟨count, _⟩ :=
      { core.session with debugPlan := some plan }.newDebugRuntimeTargetLocked_spec
    simp only [CreatePC.leased, count, Nat.add_zero]
  | debugger =>
    simp [CreatePC.leased, DebugRuntime.leased]
    omega
  | released =>
    obtain ⟨count, _⟩ := core.session.releaseDebugRuntime_spec
    simp only [CreatePC.leased, count] at held ⊢
    omega
  | _ =>
    simp [CreatePC.leased]

theorem leaseChannel (channel : core.session.LeaseChannel) : next.session.LeaseChannel := by
  cases move with
  | leased => exact channel.newDebugRuntimeTargetLocked
  | @stored plan =>
    have stored : { core.session with debugPlan := some plan }.LeaseChannel := channel
    exact stored.newDebugRuntimeTargetLocked
  | released => exact channel.releaseDebugRuntime
  | _ => exact channel

theorem compilation (compilation : core.session.Compilation)
    (running : pc.compiling = 1 → core.session.debugCompiling = true) :
    next.session.Compilation ∧
      pc'.compiling + core.session.compiling = pc.compiling + next.session.compiling := by
  obtain ⟨channel, uncompiled⟩ := compilation
  cases move with
  | leased =>
    obtain ⟨_, _, debug, _, compiling, done⟩ :=
      core.session.newDebugRuntimeTargetLocked_spec
    refine ⟨⟨?_, ?_⟩, ?_⟩
    · simpa only [done, compiling] using channel
    · simpa only [debug, compiling] using uncompiled
    · simp [CreatePC.compiling, Session.compiling, compiling]
  | startCompile absent idle =>
    refine ⟨⟨by simp, fun _ => absent⟩, ?_⟩
    simp [CreatePC.compiling, Session.compiling, idle]
  | stored | refused | failed =>
    have compiling := running rfl
    refine ⟨⟨by simp, by simp⟩, ?_⟩
    simp [CreatePC.compiling, Session.compiling, compiling]
  | released =>
    obtain ⟨_, _, debug, _, compiling, done⟩ := core.session.releaseDebugRuntime_spec
    refine ⟨⟨?_, ?_⟩, ?_⟩
    · simpa only [done, compiling] using channel
    · simpa only [debug, compiling] using uncompiled
    · simp [CreatePC.compiling, Session.compiling, compiling]
  | _ =>
    exact ⟨⟨channel, uncompiled⟩, rfl⟩

theorem frame :
    next.session.children = core.session.children ∧
      next.session.plan = core.session.plan := by
  cases move with
  | leased =>
    obtain ⟨_, normal, _, children, _⟩ :=
      core.session.newDebugRuntimeTargetLocked_spec
    exact ⟨children, normal⟩
  | @stored plan =>
    obtain ⟨_, normal, _, children, _⟩ :=
      { core.session with debugPlan := some plan }.newDebugRuntimeTargetLocked_spec
    exact ⟨children, normal⟩
  | released =>
    obtain ⟨_, normal, _, children, _⟩ := core.session.releaseDebugRuntime_spec
    exact ⟨children, normal⟩
  | _ => exact ⟨rfl, rfl⟩

theorem debugsSound (sound : ∀ debug ∈ core.debugs, debug.Sound) :
    ∀ debug ∈ next.debugs, debug.Sound := by
  cases move with
  | debugger =>
    intro debug member
    rcases mem_append.mp member with before | fresh
    · exact sound debug before
    rw [mem_singleton.mp fresh]
    refine ⟨?_, ?_⟩
    · nofun
    · nofun
  | _ => exact sound

end

end CreateMove

/-! ## The ledger of the machine -/

namespace SessionMachine

variable (m : SessionMachine)

def workerHolds (plan : Nat) : Nat :=
  match m.worker with
  | none => 0
  | some pc => pc.holdsPlan plan

def planHeld (plan : Nat) : Nat :=
  m.core.session.holdsPlan plan +
    tally (fun creation => creation.pc.holdsPlan plan) m.creators +
    m.workerHolds plan

/-- The number of places that hold a debugger session. -/
def debuggerHeld (dbg : Nat) : Nat :=
  tally (fun creation => creation.pc.holdsDebugger dbg) m.creators +
    tally (DebugRuntime.holdsDebugger dbg) m.core.debugs

end SessionMachine

structure Ledger (m : SessionMachine) : Prop where
  gate : m.core.session.children.WellFormed
  creating : m.core.session.children.creating = m.creators.length
  credible : ∀ creation ∈ m.creators, creation.pc.Credible
  plans :
    ∀ plan, m.planHeld plan + m.core.objects.planCloses plan =
      handed m.core.objects.plans plan
  debuggers :
    ∀ dbg,
      m.debuggerHeld dbg + m.core.objects.debuggerCloses dbg =
        handed m.core.objects.debuggers dbg
  leases :
    m.core.session.debugRuntimes =
      tally (fun creation => creation.pc.leased) m.creators +
        tally DebugRuntime.leased m.core.debugs
  leaseChannel : m.core.session.LeaseChannel
  compilation : m.core.session.Compilation
  compiling :
    tally (fun creation => creation.pc.compiling) m.creators =
      m.core.session.compiling
  debugs : ∀ debug ∈ m.core.debugs, debug.Sound

theorem ledger_init (id ws hooks : Nat) (materialize : GoError → RuntimeFailure) :
    Ledger (.init id ws hooks materialize) := by
  constructor
  · exact Gate.wellFormed_new
  · rfl
  · nofun
  · intro plan
    have fresh := holds_fresh 0 plan
    have none : handed 0 plan = 0 := rfl
    rw [none, Nat.zero_add] at fresh
    simpa [SessionMachine.init, SessionMachine.planHeld, SessionMachine.workerHolds,
      Session.newSession, Session.holdsPlan, Objects.new] using fresh
  · intro dbg
    rfl
  · rfl
  · simp [SessionMachine.init, Session.newSession, Session.LeaseChannel]
  · constructor <;> simp [SessionMachine.init, Session.newSession]
  · rfl
  · nofun

namespace Ledger

variable {m other : SessionMachine} {creators : List RuntimeCreation}
  {worker : Option SessionClosePC} {children : Gate}

theorem congr (ledger : Ledger m)
    (core : other.core = m.core) (creators : other.creators = m.creators)
    (worker : ∀ plan, other.workerHolds plan = m.workerHolds plan) :
    Ledger other := by
  obtain ⟨gate, creating, credible, plans, debuggers, leases, leaseChannel,
    compilation, compiling, debugs⟩ := ledger
  constructor
  · rw [core]
    exact gate
  · rw [core, creators]
    exact creating
  · rw [creators]
    exact credible
  · intro plan
    simp only [SessionMachine.planHeld, core, creators, worker]
    exact plans plan
  · intro dbg
    simp only [SessionMachine.debuggerHeld, core, creators]
    exact debuggers dbg
  · rw [core, creators]
    exact leases
  · rw [core]
    exact leaseChannel
  · rw [core]
    exact compilation
  · rw [core, creators]
    exact compiling
  · rw [core]
    exact debugs

theorem congr_gate (entry : Option SessionEntry) (ledger : Ledger m)
    (gate : children.WellFormed) (creating : children.creating = creators.length)
    (credible : ∀ creation ∈ creators, creation.pc.Credible) (plans : ∀ plan,
      tally (fun creation => creation.pc.holdsPlan plan) creators =
        tally (fun creation => creation.pc.holdsPlan plan) m.creators)
    (debuggers : ∀ dbg,
      tally (fun creation => creation.pc.holdsDebugger dbg) creators =
        tally (fun creation => creation.pc.holdsDebugger dbg) m.creators)
    (leases : tally (fun creation => creation.pc.leased) creators =
      tally (fun creation => creation.pc.leased) m.creators)
    (compiling : tally (fun creation => creation.pc.compiling) creators =
      tally (fun creation => creation.pc.compiling) m.creators)
    (workerHolds : ∀ plan,
      SessionMachine.workerHolds { m with worker := worker } plan = m.workerHolds plan) :
    Ledger { m with
      core := { m.core with
        session := { m.core.session with children := children } }
      entry := entry
      creators := creators
      worker := worker } := by
  constructor
  · exact gate
  · exact creating
  · exact credible
  · intro plan
    have holds := workerHolds plan
    have before := ledger.plans plan
    simp only [SessionMachine.planHeld, SessionMachine.workerHolds,
      Session.holdsPlan] at before holds ⊢
    rw [plans plan, holds]
    exact before
  · intro dbg
    have before := ledger.debuggers dbg
    simp only [SessionMachine.debuggerHeld] at before ⊢
    rw [debuggers dbg]
    exact before
  · show m.core.session.debugRuntimes = _
    rw [leases]
    exact ledger.leases
  · exact ledger.leaseChannel
  · exact ⟨ledger.compilation.channel, ledger.compilation.uncompiled⟩
  · rw [compiling]
    exact ledger.compiling
  · exact ledger.debugs

section

variable {core : SessionCore} {plan : Nat} {runtime closed : DebugRuntime} (ledger : Ledger m)
include ledger

theorem create {input : RuntimeInput}
    {pc pc' : CreatePC} (creator : m.creators[index]? = some ⟨input, pc⟩)
    (move : CreateMove m.core input pc core pc') :
    Ledger { m with
      core := core
      creators := m.creators.set index ⟨input, pc'⟩ } := by
  obtain ⟨children, _⟩ := move.frame
  have member := mem_of_getElem? creator
  have compiles : pc.compiling ≤ m.core.session.compiling := by
    rw [← ledger.compiling]
    exact weight_le_tally (fun creation => creation.pc.compiling) member
  have running : pc.compiling = 1 → m.core.session.debugCompiling = true := by
    intro one
    by_contra idle
    simp [one, Session.compiling, idle] at compiles
  have leased : pc.leased ≤ m.core.session.debugRuntimes := by
    rw [ledger.leases]
    have below := weight_le_tally (fun creation => creation.pc.leased) member
    dsimp only at below
    omega
  obtain ⟨compilation, compiled⟩ := move.compilation ledger.compilation running
  constructor
  · show core.session.children.WellFormed
    rw [children]
    exact ledger.gate
  · show core.session.children.creating = _
    rw [children, length_set]
    exact ledger.creating
  · intro creation present
    rcases mem_or_eq_of_mem_set present with before | rfl
    · exact ledger.credible creation before
    · exact move.credible
  · intro plan
    have before := ledger.plans plan
    have moved := move.plans (fun one => ledger.compilation.uncompiled (running one)) plan
    have set := tally_set (fun creation => creation.pc.holdsPlan plan) creator ⟨input, pc'⟩
    simp only [SessionMachine.planHeld, SessionMachine.workerHolds] at before ⊢
    dsimp only at set
    omega
  · intro dbg
    have before := ledger.debuggers dbg
    have moved := move.debuggers dbg
    have set := tally_set (fun creation => creation.pc.holdsDebugger dbg) creator
      ⟨input, pc'⟩
    simp only [SessionMachine.debuggerHeld] at before ⊢
    dsimp only at set
    omega
  · have before := ledger.leases
    have moved := move.leases leased
    have set := tally_set (fun creation => creation.pc.leased) creator ⟨input, pc'⟩
    dsimp only at set ⊢
    omega
  · exact move.leaseChannel ledger.leaseChannel
  · exact compilation
  · have before := ledger.compiling
    have set := tally_set (fun creation => creation.pc.compiling) creator ⟨input, pc'⟩
    dsimp only at set ⊢
    omega
  · exact move.debugsSound ledger.debugs

theorem discard (held : m.core.session.plan = some plan) : Ledger { m with
      core := { m.core with
        session := { m.core.session with plan := none }
        objects := m.core.objects.closePlan plan } } := by
  obtain ⟨gate, creating, credible, plans, debuggers, leases, leaseChannel,
    compilation, compiling, debugs⟩ := ledger
  refine ⟨gate, creating, credible, ?_, debuggers, leases, leaseChannel, ?_, compiling, debugs⟩
  · intro other
    have before := plans other
    have closes := m.core.objects.planCloses_closePlan plan other
    have same : (m.core.objects.closePlan plan).plans = m.core.objects.plans :=
      rfl
    simp only [SessionMachine.planHeld, SessionMachine.workerHolds, Session.holdsPlan,
      held, holds_none, closes, same] at before ⊢
    omega
  · exact ⟨compilation.channel, compilation.uncompiled⟩

theorem beginDebugClose {debug : Nat} (found : m.core.debugs[debug]? = some runtime) :
    Ledger { m with
      core := { m.core with
        debugs := m.core.debugs.set debug
          { runtime with closers := runtime.closers ++ [.cancel] } } } := by
  have sound := ledger.debugs runtime (mem_of_getElem? found)
  refine ⟨ledger.gate, ledger.creating, ledger.credible, ledger.plans, ?_, ?_,
    ledger.leaseChannel, ledger.compilation, ledger.compiling, ?_⟩
  · intro dbg
    have before := ledger.debuggers dbg
    have set := tally_set (DebugRuntime.holdsDebugger dbg) found
      { runtime with closers := runtime.closers ++ [.cancel] }
    have same : DebugRuntime.holdsDebugger dbg
        { runtime with closers := runtime.closers ++ [.cancel] } =
          runtime.holdsDebugger dbg :=
      rfl
    simp only [SessionMachine.debuggerHeld] at before ⊢
    omega
  · have before := ledger.leases
    have set := tally_set DebugRuntime.leased found
      { runtime with closers := runtime.closers ++ [.cancel] }
    have same : DebugRuntime.leased
        { runtime with closers := runtime.closers ++ [.cancel] } = runtime.leased :=
      rfl
    dsimp only
    omega
  · intro other member
    rcases mem_or_eq_of_mem_set member with before | rfl
    · exact ledger.debugs other before
    refine ⟨sound.released, ?_⟩
    intro pc closing
    rcases mem_append.mp closing with known | fresh
    · exact sound.closers pc known
    · rw [mem_singleton.mp fresh]
      trivial

theorem debugClose {debug : Nat} (found : m.core.debugs[debug]? = some runtime)
    (closer : runtime.closers[index]? = some pc) (move : DebugMove runtime pc closed pc' effect) :
    Ledger { m with
      core := { m.core with
        debugs := m.core.debugs.set debug
          { closed with closers := runtime.closers.set index pc' }
        }.applyDebugEffect effect } := by
  have sound := ledger.debugs runtime (mem_of_getElem? found)
  have consistent := sound.closers pc (mem_of_getElem? closer)
  have soundNext := move.sound sound closer
  have debugs : ∀ other ∈ m.core.debugs.set debug
      { closed with closers := runtime.closers.set index pc' }, other.Sound := by
    intro other member
    rcases mem_or_eq_of_mem_set member with before | rfl
    · exact ledger.debugs other before
    · exact soundNext
  have holdings : ∀ dbg,
      tally (DebugRuntime.holdsDebugger dbg) (m.core.debugs.set debug
          { closed with closers := runtime.closers.set index pc' }) +
          effect.closes dbg =
        tally (DebugRuntime.holdsDebugger dbg) m.core.debugs := by
    intro dbg
    have set := tally_set (DebugRuntime.holdsDebugger dbg) found
      { closed with closers := runtime.closers.set index pc' }
    have moved := (move.holdings consistent dbg).1
    have same : DebugRuntime.holdsDebugger dbg
        { closed with closers := runtime.closers.set index pc' } =
          closed.holdsDebugger dbg :=
      rfl
    omega
  have leased :
      tally DebugRuntime.leased (m.core.debugs.set debug
          { closed with closers := runtime.closers.set index pc' }) +
          effect.releases =
        tally DebugRuntime.leased m.core.debugs := by
    have set := tally_set DebugRuntime.leased found
      { closed with closers := runtime.closers.set index pc' }
    have moved := (move.holdings consistent 0).2
    have same : DebugRuntime.leased
        { closed with closers := runtime.closers.set index pc' } = closed.leased :=
      rfl
    omega
  cases effect with
  | none =>
    refine ⟨ledger.gate, ledger.creating, ledger.credible, ledger.plans, ?_, ?_,
      ledger.leaseChannel, ledger.compilation, ledger.compiling, debugs⟩
    · intro dbg
      have before := ledger.debuggers dbg
      have moved := holdings dbg
      simp only [SessionMachine.debuggerHeld, applyDebugEffect,
        DebugEffect.closes] at before moved ⊢
      omega
    · have before := ledger.leases
      simp only [applyDebugEffect, DebugEffect.releases] at leased ⊢
      omega
  | closeDebugger held =>
    refine ⟨ledger.gate, ledger.creating, ledger.credible, ledger.plans, ?_, ?_,
      ledger.leaseChannel, ledger.compilation, ledger.compiling, debugs⟩
    · intro dbg
      have before := ledger.debuggers dbg
      have moved := holdings dbg
      have closes :=
        m.core.objects.debuggerCloses_closeDebugger held dbg
      have same : (m.core.objects.closeDebugger held).debuggers =
          m.core.objects.debuggers :=
        rfl
      simp only [SessionMachine.debuggerHeld, applyDebugEffect,
        DebugEffect.closes, closes, same] at before moved ⊢
      omega
    · have before := ledger.leases
      simp only [applyDebugEffect, DebugEffect.releases] at leased ⊢
      omega
  | releaseLease =>
    obtain ⟨count, normal, debugPlan, children, compiling, done⟩ :=
      m.core.session.releaseDebugRuntime_spec
    constructor
    · simpa only [applyDebugEffect, children] using ledger.gate
    · simpa only [applyDebugEffect, children] using ledger.creating
    · exact ledger.credible
    · intro plan
      have before := ledger.plans plan
      simpa only [SessionMachine.planHeld, SessionMachine.workerHolds,
        Session.holdsPlan, applyDebugEffect, normal, debugPlan] using before
    · intro dbg
      have before := ledger.debuggers dbg
      have moved := holdings dbg
      simp only [SessionMachine.debuggerHeld, applyDebugEffect,
        DebugEffect.closes] at before moved ⊢
      omega
    · have before := ledger.leases
      simp only [applyDebugEffect, DebugEffect.releases, count] at leased ⊢
      omega
    · exact ledger.leaseChannel.releaseDebugRuntime
    · constructor
      · simpa only [applyDebugEffect, done, compiling] using ledger.compilation.channel
      · simpa only [applyDebugEffect, debugPlan, compiling] using ledger.compilation.uncompiled
    · have before := ledger.compiling
      simpa only [applyDebugEffect, Session.compiling, compiling] using before
    · exact debugs

end

end Ledger

end Ferretd.Exec

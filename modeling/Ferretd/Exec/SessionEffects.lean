import Ferretd.Exec.SessionMachine

/-!
# What the steps of a session machine do

Inversion of the step functions, once for all later arguments: the outcomes of a
runtime creation, of `DebugRuntime.Close`, of the owner of the close operation, and
of a step of the whole machine.
-/

namespace Ferretd.Exec

open Library

/-! ## Runtime creation -/

/-- A control point that `CreateDebugRuntime` can reach: a compilation without a Plan
has an error. -/
def CreatePC.Credible : CreatePC → Prop
  | .commitCompile none err => err ≠ []
  | _ => True

/-- The outcomes of one step of `CreateDebugRuntime`. -/
inductive CreateMove (core : SessionCore) (input : RuntimeInput) :
    CreatePC → SessionCore → CreatePC → Prop
  | rejected {err : GoError} : CreateMove core input .acquire core (.finish err)
  | leased {plan : Nat} (stored : core.session.debugPlan = some plan) :
      CreateMove core input .acquire
        { core with session := core.session.newDebugRuntimeTargetLocked }
        (.newDebugSession plan)
  | await {channel} : CreateMove core input .acquire core (.awaitCompile channel)
  | startCompile (absent : core.session.debugPlan = none)
      (idle : core.session.debugCompiling = false) :
      CreateMove core input .acquire { core with
          session := { core.session with
            debugCompiling := true
            debugCompileDone := some core.session.channels
            channels := core.session.channels + 1 } }
        .compile
  | abandoned {channel} {err : GoError} :
      CreateMove core input (.awaitCompile channel) core (.finish err)
  | retry {channel} : CreateMove core input (.awaitCompile channel) core .acquire
  | compileFailed {err : List Cause} (present : err ≠ []) :
      CreateMove core input .compile core (.commitCompile none err)
  | compiled {err : GoError} :
      CreateMove core input .compile
        { core with objects := { core.objects with plans := core.objects.plans + 1 } }
        (.commitCompile (some core.objects.plans) err)
  | stored {plan : Nat} : CreateMove core input (.commitCompile (some plan) []) { core with
          session := { { core.session with
              debugPlan := some plan }.newDebugRuntimeTargetLocked with
            debugCompiling := false
            debugCompileDone := none } }
        (.newDebugSession plan)
  | refused {plan : Nat} {failed closing} {err failure : GoError} :
      CreateMove core input (.commitCompile (some plan) err) { core with
          session := { core.session with
            debugCompileErr := failure
            debugCompileFailed := failed
            debugCompiling := false
            debugCompileDone := none } }
        (.closeCompiled plan err closing)
  | failed {failed} {err failure reported : GoError} :
      CreateMove core input (.commitCompile none err) { core with
          session := { core.session with
            debugCompileErr := failure
            debugCompileFailed := failed
            debugCompiling := false
            debugCompileDone := none } }
        (.finish reported)
  | planClosed {plan : Nat} {err : GoError} {closing reported} :
      CreateMove core input (.closeCompiled plan err closing)
        { core with objects := core.objects.closePlan plan }
        (.finish reported)
  | noDebugger {plan : Nat} {err : GoError} :
      CreateMove core input (.newDebugSession plan) core (.release plan err)
  | debuggerFailed {plan : Nat} {err : GoError} :
      CreateMove core input (.newDebugSession plan) { core with
          objects := { core.objects with debuggers := core.objects.debuggers + 1 } }
        (.closeDebugger plan core.objects.debuggers err)
  | debugger {plan : Nat} : CreateMove core input (.newDebugSession plan) { core with
          objects := { core.objects with debuggers := core.objects.debuggers + 1 }
          debugs := core.debugs ++
            [⟨{ newExecutionRuntime ⟨core.session.id, some plan⟩ input
                  core.session.materialize with
                session := some core.objects.debuggers }, false, []⟩] }
        (.finish [])
  | debuggerClosed {plan : Nat} {dbg} {err : GoError} {reported} :
      CreateMove core input (.closeDebugger plan dbg err)
        { core with objects := core.objects.closeDebugger dbg }
        (.release plan reported)
  | released {plan : Nat} {err : GoError} :
      CreateMove core input (.release plan err)
        { core with session := core.session.releaseDebugRuntime } (.finish err)

variable {answer : Answer} {debug : DebugRuntime} {effect : DebugEffect} {m : SessionMachine}
  {order : List Nat}

namespace CreateMove

variable {core next : SessionCore} {input : RuntimeInput} {pc' pc : CreatePC} {plan : Option Nat}
  {err : GoError}

theorem of_acquire (taken : createStep core input answer .acquire = some (next, pc')) :
    CreateMove core input .acquire next pc' := by
  cases accepting : core.session.children.accepting with
  | false =>
    simp [createStep, Session.acquireDebugRuntimeTarget, accepting] at taken
    obtain ⟨rfl, rfl⟩ := taken
    exact .rejected
  | true =>
    cases stored : core.session.debugPlan with
    | some plan =>
      simp [createStep, Session.acquireDebugRuntimeTarget, accepting, stored] at taken
      obtain ⟨rfl, rfl⟩ := taken
      exact .leased stored
    | none =>
      cases failed : core.session.debugCompileFailed with
      | true =>
        simp [createStep, Session.acquireDebugRuntimeTarget, accepting, stored, failed] at taken
        obtain ⟨rfl, rfl⟩ := taken
        exact .rejected
      | false =>
        cases compiling : core.session.debugCompiling with
        | true =>
          simp [createStep, Session.acquireDebugRuntimeTarget, accepting,
            stored, failed, compiling] at taken
          obtain ⟨rfl, rfl⟩ := taken
          exact .await
        | false =>
          simp only [createStep, Session.acquireDebugRuntimeTarget, accepting,
            stored, failed, compiling] at taken
          cases taken
          have move : CreateMove core input .acquire _ _ :=
            .startCompile stored compiling
          simpa only [stored, failed] using move

theorem of_commitCompile (credible : (CreatePC.commitCompile plan err).Credible)
    (taken : createStep core input answer (.commitCompile plan err) = some (next, pc')) :
    CreateMove core input (.commitCompile plan err) next pc' := by
  cases plan with
  | none =>
    have present : err ≠ [] := credible
    cases context : err.isContext <;>
      simp [createStep, Session.commitCompile, present, context] at taken <;>
      obtain ⟨rfl, rfl⟩ := taken <;> exact .failed
  | some plan =>
    by_cases present : err = []
    · subst present
      cases accepting : core.session.children.accepting with
      | true =>
        simp [createStep, Session.commitCompile, accepting] at taken
        obtain ⟨rfl, rfl⟩ := taken
        exact .stored
      | false =>
        simp [createStep, Session.commitCompile, accepting] at taken
        obtain ⟨rfl, rfl⟩ := taken
        exact .refused
    · cases context : err.isContext <;>
        simp [createStep, Session.commitCompile, present, context] at taken <;>
        obtain ⟨rfl, rfl⟩ := taken <;> exact .refused

theorem of_createStep (credible : pc.Credible)
    (taken : createStep core input answer pc = some (next, pc')) :
    CreateMove core input pc next pc' := by
  cases pc with
  | addExecution | finish => cases taken
  | acquire => exact of_acquire taken
  | awaitCompile channel =>
    simp only [createStep] at taken
    split at taken
    · cases taken
      exact .abandoned
    split at taken <;> cases taken
    exact .retry
  | compile =>
    simp only [createStep, SessionCore.compiled] at taken
    split at taken
    · split at taken <;> cases taken
      · exact .compileFailed (List.cons_ne_nil _ _)
      next present => exact .compileFailed present
    · cases taken
      exact .compiled
  | commitCompile => exact of_commitCompile credible taken
  | closeCompiled plan err closing =>
    cases taken
    exact .planClosed
  | newDebugSession plan =>
    simp only [createStep, SessionCore.debuggerReturned] at taken
    split at taken
    · split at taken <;> cases taken <;> exact .noDebugger
    split at taken <;> cases taken
    · exact .debugger
    · exact .debuggerFailed
  | closeDebugger plan dbg err =>
    cases taken
    exact .debuggerClosed
  | release plan err =>
    cases taken
    exact .released

theorem credible (move : CreateMove core input pc next pc') : pc'.Credible := by
  cases move with
  | compileFailed present => exact present
  | _ => trivial

end CreateMove

/-! ## Closing a debug runtime -/

/-- The outcomes of one step of `DebugRuntime.Close`. -/
inductive DebugMove (debug : DebugRuntime) :
    DebugClosePC → DebugRuntime → DebugClosePC → DebugEffect → Prop
  | cancel :
      DebugMove debug .cancel { debug with runtime := debug.runtime.cancel } .enterClose .none
  | enter {dbg} (idle : debug.runtime.closeOnce = .idle)
      (stored : debug.runtime.session = some dbg) :
      DebugMove debug .enterClose
        { debug with runtime := { debug.runtime with closeOnce := .running } }
        .returnClose (.closeDebugger dbg)
  | enterEmpty (idle : debug.runtime.closeOnce = .idle)
      (absent : debug.runtime.session = none) :
      DebugMove debug .enterClose
        { debug with runtime := { debug.runtime with closeOnce := .done } }
        (.release debug.runtime.closeErr) .none
  | enterDone (done : debug.runtime.closeOnce = .done) :
      DebugMove debug .enterClose debug (.release debug.runtime.closeErr) .none
  | returned {err : GoError} :
      DebugMove debug .returnClose
        { debug with runtime := debug.runtime.returnClose err } (.release err) .none
  | release {err : GoError} (unreleased : debug.released = false) :
      DebugMove debug (.release err) { debug with released := true } (.returned err) .releaseLease
  | releaseAgain {err : GoError} (released : debug.released = true) :
      DebugMove debug (.release err) debug (.returned err) .none

theorem DebugMove.of_debugCloseStep {next : DebugRuntime} {pc' pc : DebugClosePC}
    (taken : debugCloseStep debug answer pc = some (next, pc', effect)) :
    DebugMove debug pc next pc' effect := by
  revert taken
  fun_cases debugCloseStep debug answer pc
  all_goals intro taken; cases taken
  · exact .cancel
  next dbg entered =>
    revert entered
    fun_cases ExecutionRuntime.enterClose debug.runtime
    all_goals intro entered; cases entered
    next idle stored => simpa only [stored] using DebugMove.enter idle stored
  next entered =>
    revert entered
    fun_cases ExecutionRuntime.enterClose debug.runtime
    all_goals intro entered; cases entered
    next finished => exact .enterDone finished
    next idle stored => simpa only [stored] using DebugMove.enterEmpty idle stored
  · exact .returned
  next err released => exact .releaseAgain released
  next err unreleased => exact .release (by simpa using unreleased)

/-! ## The owner of the close operation -/

/-- The outcomes of one step of `finishSessionClose`. -/
inductive CloseMove (m : SessionMachine) :
    SessionClosePC → SessionMachine → Prop
  | capture {captured} (waits : m.core.session.children.waitForCreates = .ok captured) :
      CloseMove m .waitForCreates { m with worker := some (.awaitCreates captured) }
  | created {captured} (signal : m.core.session.children.createsSignalled captured = true) :
      CloseMove m (.awaitCreates captured) { m with worker := some .beginChildren }
  | begin {order : List Nat} {executions} (visits : order.Perm m.registry.children)
      (begun : ExecutionRegistry.beginCloseAll m.executions order = .ok executions) :
      CloseMove m .beginChildren { m with
          executions := executions
          registry := m.registry.beginSessionClose
          worker := some (.awaitChildren order []) }
  | child {entry rest result} {id : Nat} (found : m.executions[id]? = some entry)
      (finished : entry.machine.execution.close.state = .finished) :
      CloseMove m (.awaitChildren (id :: rest) result) { m with
          worker := some (.awaitChildren rest (result.join entry.machine.execution.close.err)) }
  | collected {result} :
      CloseMove m (.awaitChildren [] result)
        { m with worker := some (.finishChildren result) }
  | finishChildren {result} : CloseMove m (.finishChildren result) { m with
          registry := m.registry.finishSessionClose
          worker := some (.hooks m.hooks result) }
  | hook {remaining result} {err : GoError} :
      CloseMove m (.hooks (remaining + 1) result)
        { m with worker := some (.hooks remaining (result.join err)) }
  | hooked {result} :
      CloseMove m (.hooks 0 result) { m with worker := some (.samplePlans result) }
  | sample {result} : CloseMove m (.samplePlans result) { m with
          worker := some (.awaitCompile m.core.session.debugCompileDone
            m.core.session.debugRuntimeDone result) }
  | compiled {compileDone runtimeDone result} :
      CloseMove m (.awaitCompile compileDone runtimeDone result)
        { m with worker := some (.awaitRuntimes runtimeDone result) }
  | runtimes {runtimeDone result}
      (signal : signalled m.core.session.debugRuntimeDone runtimeDone = true) :
      CloseMove m (.awaitRuntimes runtimeDone result)
        { m with worker := some (.takePlans result) }
  | take {result} : CloseMove m (.takePlans result) { m with
          core := { m.core with
            session := { m.core.session with plan := none, debugPlan := none } }
          worker := some (.closePlan m.core.session.plan m.core.session.debugPlan result) }
  | closePlan {result joined} {plan : Option Nat} {debugPlan} (grows : result ⊆ joined) :
      CloseMove m (.closePlan plan debugPlan result) { m.closeTaken plan with
          worker := some (.closeDebugPlan debugPlan joined) }
  | closeDebugPlan {result joined debugPlan} (grows : result ⊆ joined) :
      CloseMove m (.closeDebugPlan debugPlan result)
        { m.closeTaken debugPlan with worker := some (.finishClose joined) }
  | finish {result children}
      (finished : m.core.session.children.finishClose result = .ok children) :
      CloseMove m (.finishClose result) { m with
          core := { m.core with
            session := { m.core.session with children := children } }
          worker := some .removeEntry }
  | remove : CloseMove m .removeEntry { m with
          entry := m.entry.map fun entry => { entry with listed := false }
          worker := none }

theorem SessionMachine.subset_joinTaken (result : GoError) (answer : Answer)
    (plan : Option Nat) : result ⊆ SessionMachine.joinTaken result answer plan := by
  cases plan with
  | none => exact List.Subset.refl _
  | some => exact GoError.subset_join_left _ _

theorem CloseMove.of_closeStep {next : SessionMachine} {pc : SessionClosePC}
    (taken : m.closeStep answer order pc = some next) :
    CloseMove m pc next := by
  revert taken
  fun_cases SessionMachine.closeStep m answer order pc
  all_goals intro taken; cases taken
  next waits => exact .capture waits
  next captured signal => exact .created signal
  next visits _ begun => exact .begin visits begun
  next result => exact .collected
  next id rest result entry found err waits =>
    obtain ⟨finished, rfl⟩ := CloseOperation.wait_some waits
    exact .child found finished
  next result => exact .finishChildren
  next result => exact .hooked
  next remaining result => exact .hook
  next result => exact .sample
  next compileDone runtimeDone result _ => exact .compiled
  next runtimeDone result signal => exact .runtimes signal
  next result _ _ _ taken =>
    cases taken
    exact .take
  next plan debugPlan result =>
    exact .closePlan (SessionMachine.subset_joinTaken result answer plan)
  next debugPlan result =>
    exact .closeDebugPlan (SessionMachine.subset_joinTaken result answer debugPlan)
  next result children finished => exact .finish finished
  · exact .remove

/-! ## The machine -/

inductive SessionEffect (m : SessionMachine) :
    SessionAction → SessionMachine → Prop
  | keep {action : SessionAction} : SessionEffect m action m
  | publish {plan : Nat} (unpublished : m.entry = none)
      (held : m.core.session.plan = some plan) :
      SessionEffect m .publish { m with entry := some ⟨.active, true⟩ }
  | discard {plan : Nat} (unpublished : m.entry = none)
      (held : m.core.session.plan = some plan) :
      SessionEffect m .discard { m with
          core := { m.core with
            session := { m.core.session with plan := none }
            objects := m.core.objects.closePlan plan } }
  | enroll {debug : Bool} {input : RuntimeInput} {registryClosed}
      (active : m.entry = some ⟨.active, true⟩)
      (admitted : m.core.session.children.beginCreate.1 = true) :
      SessionEffect m (.beginCreate debug input registryClosed) { m with
          core := { m.core with
            session := { m.core.session with
              children := m.core.session.children.beginCreate.2 } }
          creators := m.creators ++ [⟨input, if debug then .acquire else .addExecution⟩] }
  | addExecution {index : Nat} {registry} {answer : Answer} {input : RuntimeInput}
      (creator : m.creators[index]? = some ⟨input, .addExecution⟩)
      (added : m.registry.add m.executions.length = .ok registry) :
      SessionEffect m (.create index answer) { m with
          creators := m.creators.set index ⟨input, .finish []⟩
          executions := m.executions ++
            [⟨.init m.executions.length m.core.session.runtimeTarget input
              m.core.session.materialize, .active, false⟩]
          registry := registry }
  | create {index : Nat} {input : RuntimeInput} {answer : Answer} {pc : CreatePC}
      {core : SessionCore} {pc' : CreatePC}
      (creator : m.creators[index]? = some ⟨input, pc⟩)
      (taken : createStep m.core input answer pc = some (core, pc')) :
      SessionEffect m (.create index answer) { m with
          core := core
          creators := m.creators.set index ⟨input, pc'⟩ }
  | finishCreate {index : Nat} {last children} {answer : Answer} {input : RuntimeInput}
      {err : GoError}
      (creator : m.creators[index]? = some ⟨input, .finish err⟩)
      (ended : m.core.session.children.endCreate = .ok (last, children)) :
      SessionEffect m (.create index answer) { m with
          core := { m.core with
            session := { m.core.session with children := children } }
          creators := m.creators.eraseIdx index }
  | execution {own entry moved} {action : SessionAction} {id : Nat} (opens : own ≠ .beginClose)
      (found : m.executions[id]? = some entry)
      (taken : entry.machine.step own = some moved) :
      SessionEffect m action { m with
          executions := m.executions.set id { entry with machine := moved } }
  | beginExecutionClose {entry owner begun} {id : Nat} (found : m.executions[id]? = some entry)
      (begins : entry.beginCloseLocked = .ok (owner, begun)) :
      SessionEffect m (.beginExecutionClose id)
        { m with executions := m.executions.set id begun }
  | removeExecution {entry} {id : Nat} (found : m.executions[id]? = some entry)
      (finished : entry.machine.execution.close.state = .finished)
      (present : entry.removed = false) :
      SessionEffect m (.removeExecution id) { m with
          executions := m.executions.set id { entry with removed := true }
          registry := m.registry.finishClose id (!m.core.session.children.accepting) }
  | beginDebugClose {debug : Nat} {runtime} (found : m.core.debugs[debug]? = some runtime) :
      SessionEffect m (.beginDebugClose debug) { m with
          core := { m.core with
            debugs := m.core.debugs.set debug
              { runtime with closers := runtime.closers ++ [.cancel] } } }
  | debugClose {debug : Nat} {runtime} {index : Nat} {pc : DebugClosePC} {closed}
      {pc' : DebugClosePC} {effect : DebugEffect} {answer : Answer}
      (found : m.core.debugs[debug]? = some runtime)
      (closer : runtime.closers[index]? = some pc)
      (move : DebugMove runtime pc closed pc' effect) :
      SessionEffect m (.debugClose debug index answer) { m with
          core := { m.core with
            debugs := m.core.debugs.set debug
              { closed with closers := runtime.closers.set index pc' }
            }.applyDebugEffect effect }
  | beginClose {entry} (published : m.entry = some entry) (active : entry.state = .active)
      (begun : m.core.session.children.beginClose.1 = true) :
      SessionEffect m .beginClose { m with
          core := { m.core with
            session := { m.core.session with
              children := m.core.session.children.beginClose.2 } }
          entry := some { entry with state := .closing }
          worker := some .waitForCreates }
  | close {pc : SessionClosePC} {next : SessionMachine} {answer : Answer} {order : List Nat}
      (owner : m.worker = some pc) (move : CloseMove m pc next) :
      SessionEffect m (.close answer order) next

namespace SessionEffect

variable {index : Nat} {action : SessionAction}

theorem of_create {next : SessionMachine} (taken : m.create index answer = some next) :
    SessionEffect m (.create index answer) next := by
  revert taken
  fun_cases SessionMachine.create m index answer
  all_goals intro taken
  · cases taken
  next input creator =>
    simp only [SessionMachine.addExecution] at taken
    split at taken <;> cases taken
    next added => exact .addExecution creator added
  next input err creator =>
    simp only [SessionMachine.finishCreate] at taken
    split at taken <;> cases taken
    next ended => exact .finishCreate creator ended
  next input pc _ _ creator =>
    obtain ⟨moved, stepped, rfl⟩ := Option.map_eq_some_iff.mp taken
    exact .create creator stepped

theorem of_step {next : SessionMachine}
    (taken : m.step action = some next) : SessionEffect m action next := by
  revert taken
  fun_cases SessionMachine.step m action
  all_goals intro taken
  next plan held unpublished =>
    cases taken
    exact .publish unpublished held
  · cases taken
  · simp only [SessionMachine.discard, Session.closeUnpublished] at taken
    split at taken <;> cases taken
    next plan session unpublished held =>
      obtain ⟨heldPlan, rfl⟩ := Prod.mk.inj held
      exact .discard unpublished heldPlan
  next debug input registryClosed =>
    simp only [SessionMachine.beginCreate] at taken
    split at taken
    · cases taken
      exact .keep
    rename_i admissible
    split at taken <;> cases taken
    next admitted =>
      have active : m.entry = some ⟨.active, true⟩ := by
        simpa [SessionMachine.active] using fun unlisted => admissible (Or.inr unlisted)
      exact .enroll active admitted
  · exact of_create taken
  · cases taken
  next id own direct entry found =>
    obtain ⟨moved, stepped, rfl⟩ := Option.map_eq_some_iff.mp taken
    refine .execution ?_ found stepped
    rintro rfl
    cases direct
  · cases taken
  next id =>
    revert taken
    fun_cases SessionMachine.beginExecutionClose m id
    all_goals intro taken; cases taken
    next entry found _ begun begins =>
      exact .beginExecutionClose found begins
    · exact .keep
  next id answer =>
    simp only [SessionMachine.settleExecution] at taken
    split at taken
    · cases taken
    next entry found =>
      obtain ⟨moved, stepped, rfl⟩ := Option.map_eq_some_iff.mp taken
      exact .execution (by simp) found stepped
  next id =>
    revert taken
    fun_cases SessionMachine.removeExecution m id
    all_goals intro taken; cases taken
    next entry found settled =>
      have finished : entry.machine.execution.close.state = .finished := by
        simpa [CloseOperation.finished] using settled.1
      exact .removeExecution found finished settled.2
  · cases taken
  next debug runtime found =>
    cases taken
    exact .beginDebugClose found
  next debug index answer =>
    revert taken
    fun_cases SessionMachine.debugClose m debug index answer
    all_goals intro taken
    · cases taken
    · cases taken
    next runtime found pc closer =>
      obtain ⟨⟨closed, pc', effect⟩, stepped, rfl⟩ := Option.map_eq_some_iff.mp taken
      exact .debugClose found closer (DebugMove.of_debugCloseStep stepped)
  · revert taken
    fun_cases SessionMachine.beginClose m
    all_goals intro taken; cases taken
    · exact .keep
    next entry published active begun =>
      have state : entry.state = .active := by
        cases known : entry.state with
        | active => rfl
        | closing => exact absurd known active
      exact .beginClose published state begun
  · cases taken
  next answer order pc owner =>
    exact .close owner (.of_closeStep taken)

end SessionEffect

end Ferretd.Exec

import Ferretd.Dap.Responses

/-!
# Responses come

A handler that owes a response is never stuck, and it looks up, reads and allocates only
finitely often.
-/

namespace Ferretd.Dap

open Library Debug.SessionMachine Debug.SessionAction List

/-- The request goroutine has a resume request to commit. -/
def RequestPC.resumes : RequestPC → Bool
  | .resuming _ _ => true
  | _ => false

def WatcherPC.commits : WatcherPC → Bool
  | .committing => true
  | _ => false

/-- How many steps of its section the watch goroutine may still take. -/
def WatcherPC.span : WatcherPC → Nat
  | .continuing => 5
  | .committing => 4
  | .writing messages _ _ => messages.length + 1
  | _ => 0

namespace Machine

variable {action : Action} {answers : Answers} {requireConfigured : Bool} {host : Host}
  {m next : Machine}

/-! ## Pending resume requests -/

/-- The resume requests pending in the session are those of the two goroutines. -/
structure Slotted (m : Machine) : Prop where
  known : m.request.resumes = true → m.debugger ≠ none
  request : ∀ dbg, m.debugger = some dbg →
    (dbg.requests 0).isSome = m.request.resumes
  watcher : ∀ dbg, m.debugger = some dbg →
    (dbg.requests 1).isSome = m.watcher.commits

theorem slotted_new : Slotted .new where
  known := by
    intro resumes
    cases resumes
  request := by
    intro dbg known
    cases known
  watcher := by
    intro dbg known
    cases known

namespace Slotted

theorem rest (slotted : Slotted m) (same : next.debugger = m.debugger)
    (req : next.request.resumes = m.request.resumes)
    (watcher : next.watcher.commits = m.watcher.commits) : Slotted next := by
  refine ⟨?_, ?_, ?_⟩
  · rw [same, req]
    exact slotted.known
  · intro dbg known
    rw [req]
    exact slotted.request dbg (same.symm.trans known)
  · intro dbg known
    rw [watcher]
    exact slotted.watcher dbg (same.symm.trans known)

theorem call (slotted : Slotted m) {dbg after : Debug.SessionMachine}
    {call : Debug.SessionAction} (known : m.debugger = some dbg)
    (reached : next.debugger = some after) (stepped : dbg.step call = some after)
    (req : call.slot ≠ some 0 ∧ next.request.resumes = m.request.resumes ∨
      (after.requests 0).isSome = next.request.resumes)
    (watcher : call.slot ≠ some 1 ∧ next.watcher.commits = m.watcher.commits ∨
      (after.requests 1).isSome = next.watcher.commits) : Slotted next := by
  refine ⟨?_, ?_, ?_⟩
  · intro _
    rw [reached]
    simp
  · intro other knownOther
    cases reached.symm.trans knownOther
    rcases req with ⟨apart, same⟩ | direct
    · rw [requests_of_step stepped apart, same]
      exact slotted.request dbg known
    · exact direct
  · intro other knownOther
    cases reached.symm.trans knownOther
    rcases watcher with ⟨apart, same⟩ | direct
    · rw [requests_of_step stepped apart, same]
      exact slotted.watcher dbg known
    · exact direct

theorem callOther (slotted : Slotted m) {dbg after : Debug.SessionMachine}
    {call : Debug.SessionAction} (known : m.debugger = some dbg)
    (reached : next.debugger = some after) (stepped : dbg.step call = some after)
    (other : call.slot = none) (req : next.request.resumes = m.request.resumes)
    (watcher : next.watcher.commits = m.watcher.commits) : Slotted next := by
  refine slotted.call known reached stepped (.inl ⟨?_, req⟩) (.inl ⟨?_, watcher⟩)
  · rw [other]
    simp
  · rw [other]
    simp

theorem resumes_of_unheld (unheld : m.request.holds = false) :
    m.request.resumes = false := by
  cases pc : m.request with
  | resuming =>
    rw [pc] at unheld
    cases unheld
  | _ => rfl

theorem resumes_of_handling {arguments : Request} {req : Nat}
    (at_ : m.request = .handling req arguments) :
    m.request.resumes = false := by
  rw [at_]
  rfl

theorem request_step (slotted : Slotted m)
    (attached : Attached m) (effect : RequestEffect host answers m next) :
    Slotted next := by
  cases effect with
  | answer _ _ _ unheld =>
    exact slotted.rest rfl (resumes_of_unheld unheld).symm rfl
  | replace at_ | startFails at_ | disconnect at_
  | misanswered at_ | overflow at_ | readScope at_ =>
    exact slotted.rest rfl (resumes_of_handling at_).symm rfl
  | launch _ fresh =>
    refine ⟨?_, ?_, ?_⟩
    · nofun
    · intro dbg known
      cases known
      rfl
    · intro dbg known
      cases known
      show false = m.watcher.commits
      rw [(attached.unlaunched fresh).2]
      rfl
  | announce at_ | allocate at_ =>
    refine slotted.rest rfl ?_ rfl
    rw [at_]
    rfl
  | arm at_ free =>
    refine slotted.rest rfl ?_ ?_
    · rw [at_]
      rfl
    cases pc : m.watcher with
    | committing =>
      rw [pc] at free
      cases free
    | _ => rfl
  | start at_ _ known _ _ _ stepped
  | startUnarmed at_ _ known _ _ _ stepped =>
    exact slotted.callOther known rfl stepped rfl (resumes_of_handling at_).symm rfl
  | requestResume _ _ _ known stepped =>
    refine slotted.call known rfl stepped (.inr ?_) (.inl ⟨by simp [slot], rfl⟩)
    obtain ⟨pending, asks, _⟩ := pending_of_requestResume stepped
    rw [asks]
    rfl
  | resumeRefused _ known _ _ stepped | resume _ known _ stepped =>
    refine slotted.call known rfl stepped (.inr ?_) (.inl ⟨by simp [slot], rfl⟩)
    exact settled_of_commitResume stepped
  | @terminate _ _ _ dbg _ _ at_ _ known stepped =>
    rcases stepped with rfl | rfl
    · exact slotted.rest known.symm (resumes_of_handling at_).symm rfl
    · have called : dbg.step (.terminateExecution []) =
          some dbg.requestTermination := rfl
      exact slotted.callOther known rfl called rfl (resumes_of_handling at_).symm rfl
  | lookUp _ _ goes forward =>
    refine slotted.rest rfl ?_ rfl
    have unresuming : m.request.resumes = false := by
      cases at_ : m.request with
      | resuming =>
        rw [at_] at forward
        cases forward
      | _ => rfl
    rw [unresuming]
    rcases goes with ⟨reference, rfl⟩ | ⟨inspection, rfl⟩ <;> rfl
  | inspect _ _ asks =>
    refine slotted.rest rfl ?_ rfl
    rcases asks with ⟨thread, startFrame, levels, at_⟩ | ⟨inspection, at_⟩
    · rw [at_]
      rfl
    · rw [at_]
      rfl
  | cleanup at_ effect =>
    have cleaning : m.request.resumes = false := by
      rw [at_]
      rfl
    cases effect with
    | @call _ call _ _ _ known called stepped =>
      have other : call.slot = none := by
        rcases called with called | called | called
        all_goals
          cases called
          rfl
      exact slotted.callOther known rfl stepped other cleaning.symm rfl
    | _ =>
      exact slotted.rest rfl cleaning.symm rfl

theorem watched (slotted : Slotted m) (effect : WatchEffect m next) :
    Slotted next := by
  have uncommitted : ∀ {pc : WatcherPC}, m.watcher = pc → pc.commits = false →
      false = m.watcher.commits := by
    intro pc at_ other
    rw [at_, other]
  cases effect with
  | receive at_ known _ _ stepped
  | receiveError at_ known _ _ stepped =>
    exact slotted.callOther known rfl stepped rfl rfl (uncommitted at_ rfl)
  | eventsEnd at_ | errorsEnd at_ | continueRefused at_ | report at_
  | finish at_ | write at_ | leave at_ =>
    exact slotted.rest rfl rfl (uncommitted at_ rfl)
  | @translate translation _ _ at_ =>
    refine slotted.rest rfl rfl ?_
    rw [at_]
    cases translation with
    | write | resume => rfl
  | continueEntry _ known stepped =>
    refine slotted.call known rfl stepped (.inl ⟨by simp [slot], rfl⟩) (.inr ?_)
    obtain ⟨pending, asks, _⟩ := pending_of_requestResume stepped
    rw [asks]
    rfl
  | commitRefused _ known _ stepped | commitEntry _ known _ stepped =>
    refine slotted.call known rfl stepped (.inl ⟨by simp [slot], rfl⟩) (.inr ?_)
    exact settled_of_commitResume stepped

theorem step (slotted : Slotted m) (attached : Attached m)
    (effect : Effect host m action next) : Slotted next := by
  cases effect with
  | read at_ | stopReading at_ =>
    refine slotted.rest rfl ?_ rfl
    rw [at_]
    rfl
  | handle effect => exact slotted.request_step attached effect
  | watch effect => exact slotted.watched effect
  | @debugger call _ _ known alone stepped =>
    have other : call.slot = none := by
      cases call with
      | requestResume | commitResume => cases alone
      | _ => rfl
    exact slotted.callOther known rfl stepped other rfl rfl

end Slotted

/-! ## The invariant -/

structure Answerable (m : Machine) : Prop where
  attached : Attached m
  armed : Armed m
  withheld : Withheld m
  accounted : Accounted m
  unanswering : Unanswering m
  slotted : Slotted m

theorem answerable_new : Answerable .new where
  attached := attached_new
  armed := armed_new
  withheld := withheld_new
  accounted := accounted_new
  unanswering := unanswering_new
  slotted := slotted_new

/-- A step in which no stack trace overflows and the debugger answers within bounds. -/
def inBounds (host : Host) (m : Machine) (action : Action) : Bool :=
  m.pagesInside action && m.replacesInside host action

theorem RequestEffect.requests_eq (effect : RequestEffect host answers m next) :
    next.requests = m.requests := by
  cases effect with
  | cleanup _ effect =>
    cases effect with
    | _ => rfl
  | _ => rfl

namespace Answerable

theorem step (held : Answerable m) (allowed : m.inBounds host action = true)
    (effect : Effect host m action next) : Answerable next := by
  obtain ⟨pages, replaces⟩ := Bool.and_eq_true_iff.mp allowed
  refine ⟨held.attached.step effect, held.armed.step held.attached effect,
    held.withheld.step held.attached held.armed effect, ?_, held.unanswering.step effect,
    held.slotted.step held.attached effect⟩
  cases effect with
  | read at_ => exact held.accounted.read at_ rfl rfl rfl rfl rfl
  | stopReading at_ =>
    exact held.accounted.rest (.inr ⟨by rw [at_]; rfl, rfl⟩) rfl
      (append_nil _).symm (by simp) rfl (.inr rfl) id
  | handle effect =>
    exact held.accounted.request held.attached held.armed pages replaces effect
  | watch effect => exact held.accounted.watched held.unanswering effect
  | debugger =>
    exact held.accounted.rest (.inl rfl) rfl (append_nil _).symm (by simp) rfl
      (.inr rfl) id

end Answerable

/-! ## Turns -/

theorem known_of_launched (attached : Attached m) (launched : m.server.launched = true) :
    ∃ dbg, m.debugger = some dbg :=
  Option.ne_none_iff_exists'.mp (attached.launched launched)

theorem known_of_configuredDebug (attached : Attached m)
    (configured : m.server.configuredDebug requireConfigured = true) :
    ∃ dbg, m.debugger = some dbg :=
  known_of_launched attached (Server.launched_of_configuredDebug configured)

/-- The check that `handleResume`, `handlePause` and `handleTerminate` begin with. -/
theorem known_of_passed (attached : Attached m) {rest : Prop}
    (passed : ¬(m.server.configuredDebug requireConfigured = false ∨ rest)) :
    ∃ dbg, m.debugger = some dbg :=
  known_of_configuredDebug attached (Bool.not_eq_false _ ▸ (not_or.mp passed).1)

section Handlers

variable (attached : Attached m) (free : m.watcher.holds = false)
variable (req : Nat)

include attached free

theorem handleConfigurationDone_enabled (ctxErr : GoError) :
    ∃ next, m.handleConfigurationDone req ctxErr = some next := by
  unfold handleConfigurationDone
  split
  · exact ⟨_, rfl⟩
  rename_i passed
  have launched : m.server.launched = true := by
    by_contra other
    exact passed (.inl (by simpa using other))
  obtain ⟨dbg, known⟩ := known_of_launched attached launched
  simp only [free, Bool.false_eq_true, if_false, known]
  split
  · exact ⟨_, rfl⟩
  · split
    · exact ⟨_, rfl⟩
    · exact ⟨_, rfl⟩

theorem handleSetBreakpoints_enabled (arguments : SetBreakpointsArguments) (answers : Answers) :
    ∃ next, m.handleSetBreakpoints host req arguments answers = some next := by
  unfold handleSetBreakpoints
  split
  · exact ⟨_, rfl⟩
  rename_i sourceName clientPath requests planned
  have configured := Server.configuredDebug_of_plan planned
  obtain ⟨dbg, known⟩ := known_of_configuredDebug attached configured
  simp only [free, Bool.false_eq_true, if_false, known]
  split <;> exact ⟨_, rfl⟩

theorem handleResume_enabled (slotted : Slotted m)
    (unresuming : m.request.resumes = false) (kind : Debug.ResumeKind) (thread : Int)
    (ctxErr : GoError) :
    ∃ next, m.handleResume req kind thread ctxErr = some next := by
  unfold handleResume
  split
  · exact ⟨_, rfl⟩
  rename_i passed
  obtain ⟨dbg, known⟩ := known_of_passed attached passed
  simp only [free, Bool.false_eq_true, if_false, known]
  split
  · exact ⟨_, rfl⟩
  · have unasked := slotted.request dbg known
    rw [unresuming, Option.isSome_eq_false_iff, Option.isNone_iff_eq_none] at unasked
    simp [Debug.SessionMachine.step, unasked]

theorem handlePause_enabled (thread : Int) (answers : Answers) :
    ∃ next, m.handlePause req thread answers = some next := by
  unfold handlePause
  split
  · exact ⟨_, rfl⟩
  rename_i passed
  obtain ⟨dbg, known⟩ := known_of_passed attached passed
  simp only [free, Bool.false_eq_true, if_false, known]
  generalize (if m.refused answers.ctxErr ≠ [] then m.refused answers.ctxErr
    else dbg.session.pause [] answers.paused) = err
  split <;> exact ⟨_, rfl⟩

theorem handleTerminate_enabled (restart : Bool) (ctxErr : GoError) :
    ∃ next, m.handleTerminate req restart ctxErr = some next := by
  unfold handleTerminate
  split
  · exact ⟨_, rfl⟩
  rename_i passed
  obtain ⟨dbg, known⟩ := known_of_passed attached passed
  simp only [free, Bool.false_eq_true, if_false, known]
  split <;> exact ⟨_, rfl⟩

omit attached in
theorem handleDisconnect_enabled (restart suspendDebuggee : Bool) :
    ∃ next, m.handleDisconnect req restart suspendDebuggee = some next := by
  unfold handleDisconnect
  simp only [free, Bool.false_eq_true, if_false]
  split <;> exact ⟨_, rfl⟩

end Handlers

theorem handle_enabled (held : Answerable m) (free : m.watcher.holds = false)
    {req : Nat} (owes : m.request.owing = some req) (answers : Answers) :
    ∃ next, m.step host (.handle answers) = some next := by
  show ∃ next, m.handleStep host answers = some next
  unfold handleStep
  cases at_ : m.request with
  | handling number arguments =>
    have unresuming : m.request.resumes = false := by
      rw [at_]
      rfl
    cases arguments with
    | configurationDone =>
      exact handleConfigurationDone_enabled held.attached free number answers.ctxErr
    | setBreakpoints arguments =>
      exact handleSetBreakpoints_enabled held.attached free number arguments answers
    | resume kind thread =>
      exact handleResume_enabled held.attached free number held.slotted unresuming kind
        thread answers.ctxErr
    | pause thread => exact handlePause_enabled held.attached free number thread answers
    | terminate restart =>
      exact handleTerminate_enabled held.attached free number restart answers.ctxErr
    | disconnect restart suspendDebuggee =>
      exact handleDisconnect_enabled free number restart suspendDebuggee
    | _ => exact ⟨_, rfl⟩
  | resuming =>
    have resumes : m.request.resumes = true := by
      rw [at_]
      rfl
    obtain ⟨dbg, known⟩ := Option.ne_none_iff_exists'.mp (held.slotted.known resumes)
    have asked := held.slotted.request dbg known
    rw [resumes] at asked
    obtain ⟨pending, asks⟩ := Option.isSome_iff_exists.mp asked
    simp only [commitResume, known, Debug.SessionMachine.step, asks]
    split <;> exact ⟨_, rfl⟩
  | expanding | inspecting | allocating => exact ⟨_, rfl⟩
  | _ =>
    rw [at_] at owes
    cases owes

theorem watch_enabled (attached : Attached m) (slotted : Slotted m)
    (holds : m.watcher.holds = true) : ∃ next, m.step host .watch = some next := by
  show ∃ next, m.watchStep = some next
  have started : m.watcher ≠ .unstarted := by
    intro unstarted
    rw [unstarted] at holds
    cases holds
  obtain ⟨dbg, known⟩ := attached.known_of_started started
  have asked := slotted.watcher dbg known
  unfold watchStep
  cases at_ : m.watcher with
  | writing => exact ⟨_, rfl⟩
  | continuing =>
    rw [at_] at asked
    have unasked : dbg.requests 1 = none := by simpa [WatcherPC.commits] using asked
    simp only [continueEntry, known, Debug.SessionMachine.step, unasked]
    split <;> exact ⟨_, rfl⟩
  | committing =>
    rw [at_] at asked
    obtain ⟨pending, asks⟩ := Option.isSome_iff_exists.mp asked
    simp only [commitEntry, known, Debug.SessionMachine.step, asks]
    split <;> exact ⟨_, rfl⟩
  | _ =>
    rw [at_] at holds
    cases holds

/-! ## The rank of a state -/

/-- The handles that a handler is still to allocate. -/
def missing (host : Host) (m : Machine) : Nat :=
  match m.request with
  | .allocating _ reading handles _ =>
    (reading.payloads host m.server).length - handles.length
  | _ => 0

/-- What is lowered by every turn: the rest of the section of the watch goroutine, the
lookups of the handler, and its allocations. -/
def rank (host : Host) (m : Machine) : Nat × Nat × Nat :=
  (m.watcher.span, m.request.stage, m.missing host)

def Lower : Nat × Nat × Nat → Nat × Nat × Nat → Prop :=
  Prod.Lex (· < ·) (Prod.Lex (· < ·) (· < ·))

theorem lower_wellFounded : WellFounded Lower :=
  WellFounded.prod_lex Nat.lt_wfRel.wf (WellFounded.prod_lex Nat.lt_wfRel.wf Nat.lt_wfRel.wf)

theorem length_payloads (host : Host) (server other : Server) (reading : Reading) :
    (reading.payloads host server).length = (reading.payloads host other).length := by
  cases reading with
  | value => rfl
  | _ => simp [Reading.payloads]

theorem handle_lowers {req : Nat} (owes : m.request.owing = some req)
    (effect : RequestEffect host answers m next) :
    next.request.owing = none ∨ Lower (next.rank host) (m.rank host) := by
  cases effect with
  | requestResume at_ | readScope at_ =>
    refine .inr (Prod.Lex.right _ (Prod.Lex.left _ _ ?_))
    simp [at_, RequestPC.stage]
  | lookUp _ _ _ forward => exact .inr (Prod.Lex.right _ (Prod.Lex.left _ _ forward))
  | inspect _ _ asks =>
    refine .inr (Prod.Lex.right _ (Prod.Lex.left _ _ ?_))
    rcases asks with ⟨_, _, _, at_⟩ | ⟨_, at_⟩ <;> simp [at_, RequestPC.stage]
  | @allocate reading handles _ _ _ at_ =>
    refine .inr (Prod.Lex.right _ ?_)
    have stage : m.request.stage = 0 := by
      rw [at_]
      rfl
    have missing_ : m.missing host =
        (reading.payloads host m.server).length - handles.length := by
      rw [missing, at_]
    rw [stage, missing_]
    refine Prod.Lex.right _ ?_
    simp only [missing, length_append, length_singleton]
    rw [length_payloads host _ m.server]
    omega
  | cleanup at_ =>
    rw [at_] at owes
    cases owes
  | _ =>
    exact .inl rfl

/-- What is known of the watch goroutine, at the point where an effect finds it. -/
theorem watcher_at {test : WatcherPC → Bool} {pc : WatcherPC} (holds : test m.watcher = true)
    (at_ : m.watcher = pc) : test pc = true := by
  rw [← at_]
  exact holds

theorem watch_lowers (holds : m.watcher.holds = true)
    (effect : WatchEffect m next) : next.watcher.span < m.watcher.span := by
  cases effect with
  | receive at_ | eventsEnd at_ | receiveError at_
  | errorsEnd at_ | translate at_ | report at_ | finish at_ => cases watcher_at holds at_
  | continueRefused at_ | continueEntry at_ | commitRefused at_
  | commitEntry at_ | leave at_ | write at_ =>
    simp [at_, WatcherPC.span, Server.continueFailed]

/-- The goroutine that may go on: the watch goroutine in a section of its own, and the
request goroutine otherwise, with answers within bounds. -/
def turn (host : Host) (m : Machine) (action : Action) : Prop :=
  if m.watcher.holds then
    action = .watch
  else
    ∃ answers, action = .handle answers ∧ m.inBounds host action = true

def cancelling : Answers where
  ctxErr := [.contextCanceled]
  launch := .error [.contextCanceled]
  source := .invalid [.contextCanceled]
  replaced := .error [.contextCanceled]
  paused := [.contextCanceled]
  frames := .error [.contextCanceled]
  items := .error [.contextCanceled]
  value := .error [.contextCanceled]

theorem inBounds_cancelling : m.inBounds host (.handle cancelling) = true := by
  have pages : m.pagesInside (.handle cancelling) = true := by
    have unread : m.inspect cancelling.ctxErr cancelling.frames =
        .error [.contextCanceled] := rfl
    simp only [pagesInside, unread]
    split
    next read => cases read
    · rfl
  rw [inBounds, pages, Bool.true_and]
  simp only [replacesInside]
  split
  · split
    next replaced => cases replaced
    · rfl
  · rfl

theorem Answerable.attains (held : Answerable m) {req : Nat}
    (below : req < m.requests.length) (notLaunch : m.requests[req]? ≠ some .launch) :
    Attains (Machine.step host) (turn host) (fun m => m.responses req = 1) m := by
  let waiting (m : Machine) : Prop := Answerable m ∧
    req < m.requests.length ∧ m.requests[req]? ≠ some .launch
  have counts : ∀ m, waiting m → m.responses req =
      if m.request.owing = some req then 0 else 1 := by
    rintro m ⟨held, below, notLaunch⟩
    exact held.accounted.answered req below notLaunch
  refine attains_of_rank lower_wellFounded (rank host) ?_ ?_ m
    (show waiting m from ⟨held, below, notLaunch⟩)
  · intro m _ _
    by_cases holds : m.watcher.holds = true
    · exact ⟨.watch, by rw [turn, if_pos holds]⟩
    · refine ⟨.handle cancelling, ?_⟩
      rw [turn, if_neg holds]
      exact ⟨cancelling, rfl, inBounds_cancelling⟩
  · intro m action waits unanswered turns
    have owes : m.request.owing = some req := by
      by_contra other
      exact unanswered ((counts m waits).trans (if_neg other))
    obtain ⟨held, below, notLaunch⟩ := waits
    by_cases holds : m.watcher.holds = true
    · rw [turn, if_pos holds] at turns
      subst turns
      obtain ⟨next, taken⟩ : ∃ next, m.step host .watch = some next :=
        watch_enabled held.attached held.slotted holds
      have effect := WatchEffect.of_watchStep taken
      have requests := effect.frame.2.1
      refine ⟨next, taken, ⟨held.step rfl (Effect.of_step taken), ?_, ?_⟩,
        .inr (Prod.Lex.left _ _ (watch_lowers holds effect))⟩
      · rw [requests]
        exact below
      · rw [requests]
        exact notLaunch
    · rw [turn, if_neg holds] at turns
      obtain ⟨answers, rfl, allowed⟩ := turns
      have free : m.watcher.holds = false := by simpa using holds
      obtain ⟨next, taken⟩ : ∃ next, m.step host (.handle answers) = some next :=
        handle_enabled held free owes answers
      have effect := RequestEffect.of_handleStep taken
      have requests := effect.requests_eq
      have waitsNext : waiting next := by
        refine ⟨held.step allowed (.handle effect), ?_, ?_⟩
        · rw [requests]
          exact below
        · rw [requests]
          exact notLaunch
      refine ⟨next, taken, waitsNext, ?_⟩
      rcases handle_lowers owes effect with done | lowered
      · left
        rw [counts next waitsNext, done]
        rfl
      · exact .inr lowered

/-! ## Launch ordering -/

/-- What holds of the launch and of the responses in one state. -/
structure InOrder (host : Host) (m : Machine) : Prop where
  answered : ∀ req, req < m.requests.length →
    m.requests[req]? ≠ some .launch →
      m.responses req = (if m.request.owing = some req then 0 else 1) ∧
      Attains (Machine.step host) (turn host) (fun m => m.responses req = 1)
        m
  launch : ∀ req, m.requests[req]? = some .launch →
    m.responses req ≤ 1 ∧
      ∀ body, .response req (.ok body) ∈ m.written → m.Follows req body
  withheld : ∀ req, m.launchedBy = some req → ¬ m.Answered req →
    ∀ msg ∈ m.written, msg.reports = false
  armed : ∀ action next, m.step host action = some next →
    next.startedBy ≠ m.startedBy → m.server.initialStop ≠ none

theorem armed_of_started (held : Answerable m)
    (effect : Effect host m action next) (starts : next.startedBy ≠ m.startedBy) :
    m.server.initialStop ≠ none := by
  have unchanged : next.startedBy = m.startedBy → m.server.initialStop ≠ none :=
    fun same => absurd same starts
  cases effect with
  | watch effect => exact unchanged effect.frame.2.2.2.2
  | handle effect =>
    cases effect with
    | start at_ _ known _ _ accepted
    | startUnarmed at_ _ known _ _ accepted =>
      exact held.armed.armed_of_start held.attached at_ known accepted
    | cleanup _ effect =>
      cases effect with
      | _ =>
        exact unchanged rfl
    | _ => exact unchanged rfl
  | _ => exact unchanged rfl

/-- As long as no stack trace overflows and the debugger answers within bounds, requests
are answered once and a launch is reported in order, whatever the client sends and however
the goroutines interleave. -/
theorem launch_in_order (reached : Run (Machine.step host) (fun m action =>
      m.inBounds host action = true) .new m) : InOrder host m := by
  have held : Answerable m := by
    apply reached.invariant
    · exact answerable_new
    · intro state action after held allowed taken
      exact held.step allowed (Effect.of_step taken)
  constructor
  · intro req below notLaunch
    exact ⟨held.accounted.answered req below notLaunch, held.attains below notLaunch⟩
  · intro req launched
    refine ⟨(held.accounted.launches req launched).1, ?_⟩
    intro body member
    exact (held.accounted.success req body launched member).2
  · intro req launching unanswered
    exact (held.withheld.waiting req launching unanswered).1
  · intro action next taken starts
    exact armed_of_started held (Effect.of_step taken) starts

theorem launch_in_order_started : ∃ m, Run (Machine.step plainHost) (fun m action =>
        m.inBounds plainHost action = true) .new m ∧
      m.written = [.response 0 (.ok .capabilities), .initialized,
        .response 2 (.ok .empty), .response 1 (.ok .empty)] ∧
      InOrder plainHost m := by
  have executed : (execute (guarded (Machine.step plainHost) fun m action =>
      m.inBounds plainHost action = true) .new (startSchedule false)).map
        Machine.written =
          some [.response 0 (.ok .capabilities), .initialized, .response 2 (.ok .empty),
            .response 1 (.ok .empty)] := by
    rfl
  obtain ⟨m, reached, written⟩ := Option.map_eq_some_iff.mp executed
  have run := run_of_guarded (reaches_of_execute reached)
  exact ⟨m, run, written, launch_in_order run⟩

/-- The client asks for the frames from the second on, as many as there can be: the number
of the last one is no machine integer, and the handler panics. -/
def overflowingSchedule : List Action :=
  startSchedule true ++ List.replicate 5 .watch ++
    [.read (.stackTrace threadID 1 Int64.maxValue), .handle (succeeding true)]

theorem stackTrace_unanswered :
    ∃ m, Reaches (Machine.step plainHost) .new m ∧
      m.requests[3]? = some (.stackTrace threadID 1 Int64.maxValue) ∧
      m.request.owing = none ∧ m.responses 3 = 0 ∧
      ¬ InOrder plainHost m := by
  have executed : (execute (Machine.step plainHost) .new overflowingSchedule).map
      (fun m => (m.requests[3]?, m.request.owing, m.responses 3)) =
        some (some (.stackTrace threadID 1 Int64.maxValue), none, 0) := by
    rfl
  obtain ⟨m, reached, facts⟩ := Option.map_eq_some_iff.mp executed
  simp only [Prod.mk.injEq] at facts
  obtain ⟨asked, done, unanswered⟩ := facts
  refine ⟨m, reaches_of_execute reached, asked, done, unanswered, ?_⟩
  intro inOrder
  obtain ⟨below, _⟩ := List.getElem?_eq_some_iff.mp asked
  have counts := (inOrder.answered 3 below (by simp [asked])).1
  rw [unanswered, done] at counts
  cases counts

end Machine

end Ferretd.Dap

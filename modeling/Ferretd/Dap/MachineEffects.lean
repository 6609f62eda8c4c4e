import Ferretd.Dap.Machine

/-!
# What a step of the adapter can do

One constructor for each kind of step, with the conditions under which it is taken.  The
handlers that only answer are one case: they touch neither the course of the launch nor
the handles.
-/

namespace Ferretd.Dap

open Library List

/-- The request whose response is still due. -/
def RequestPC.owing : RequestPC → Option Nat
  | .handling req _ | .resuming req _ | .expanding req _
  | .inspecting req _ | .allocating req _ _ _ => some req
  | .idle | .announcing | .arming | .cleaning _ _ _ | .ended _ => none

/-- How many lookups a handler may still make before it reads from the debugger or
answers. -/
def RequestPC.stage : RequestPC → Nat
  | .handling _ _ => 3
  | .expanding _ _ => 2
  | .inspecting _ _ => 1
  | _ => 0

/-- A handler that only answers leaves these alone. -/
structure Server.SameCourse (before after : Server) : Prop where
  pendingLaunch : after.pendingLaunch = before.pendingLaunch
  launched : after.launched = before.launched
  configured : after.configured = before.configured
  disconnected : after.disconnected = before.disconnected
  owned : after.owned = before.owned
  handles : after.handles = before.handles
  breakpoints : after.breakpoints = before.breakpoints
  initialStop : after.initialStop = before.initialStop

/-- The translation of an event leaves these alone. -/
structure Server.SameLaunch (before after : Server) : Prop where
  pendingLaunch : after.pendingLaunch = before.pendingLaunch
  launched : after.launched = before.launched
  configured : after.configured = before.configured
  disconnected : after.disconnected = before.disconnected
  owned : after.owned = before.owned

variable {arguments : SetBreakpointsArguments} {source : Server.SourceAnswer}
  {sourceName clientPath : String} {requests : List BreakpointRequest} {requireConfigured : Bool}

theorem Server.configuredDebug_of_plan {host : Host} {server : Server}
    (planned : server.planBreakpoints host arguments source =
      .replace sourceName clientPath requests) : server.configuredDebug false = true := by
  by_contra other
  unfold planBreakpoints at planned
  rw [if_pos (by simpa using other)] at planned
  cases planned

theorem Server.commitBreakpoints_ok {server committed : Server} {results : List Breakpoint}
    (commits : server.commitBreakpoints requests results = .ok committed) :
    ∃ replaced, committed = { server with
      breakpoints := replaced
      initialStop := server.initialStop.map fun stop => stop.replace results } := by
  unfold commitBreakpoints at commits
  split at commits
  · cases commits
  · cases commits
    exact ⟨_, rfl⟩

theorem Server.launched_of_configuredDebug {server : Server}
    (configured : server.configuredDebug requireConfigured = true) :
    server.launched = true := by
  simp only [configuredDebug, Bool.and_eq_true] at configured
  exact configured.1.1

inductive EventEffect (server : Server) (event : Debug.Event) :
    Server → Server.Translation → Prop
  | created (state : event.snapshot.state = .created) :
      EventEffect server event server (.write [] .keep)
  | running (state : event.snapshot.state = .running) :
      EventEffect server event server.invalidateHandles (.write [] .keep)
  | laterStop (state : event.snapshot.state = .stopped) (taken : server.initialStop = none) :
      EventEffect server event server
        (.write [server.stoppedMessage event.snapshot] .commandStopped)
  | firstStop {stop} (state : event.snapshot.state = .stopped)
      (initial : server.initialStop = some stop)
      (shown : (stop.resolve event.snapshot server.owned.stopOnEntry
        server.breakpoints).2 = false) :
      EventEffect server event { server with initialStop := none }
        (.write [server.stoppedMessage (stop.resolve event.snapshot
          server.owned.stopOnEntry server.breakpoints).1] .commandStopped)
  | suppressed {stop} (state : event.snapshot.state = .stopped)
      (initial : server.initialStop = some stop)
      (left_ : (stop.resolve event.snapshot server.owned.stopOnEntry server.breakpoints).2 = true) :
      EventEffect server event { server with
          initialStop := none
          breakpoints := server.breakpoints.commandStopped
          handles := server.handles.invalidate } .resume
  | ended {messages} (terminal : event.terminal = true) (unended : .terminated ∉ messages)
      (events : ∀ msg ∈ messages, ∀ req result, msg ≠ .response req result) :
      EventEffect server event
        { server with initialStop := none, handles := server.handles.invalidate }
        (.write (messages ++ [.terminated]) .finish)

namespace EventEffect

theorem terminated_notMem_output (snapshot : Debug.SessionSnapshot) :
    .terminated ∉ Server.outputMessages snapshot := by
  intro member
  unfold Server.outputMessages at member
  split at member
  · cases member
  · split at member
    · cases member
    · cases mem_singleton.mp member

variable {snapshot : Debug.SessionSnapshot} {msg : Message} {server after : Server}
  {event : Debug.Event} {translation : Server.Translation}

theorem response_notMem_output (member : msg ∈ Server.outputMessages snapshot)
    (req : Nat) (result : Except GoError Body) : msg ≠ .response req result := by
  rintro rfl
  unfold Server.outputMessages at member
  split at member
  · cases member
  · split at member
    · cases member
    · cases mem_singleton.mp member

theorem of_handleDebugEvent (server : Server) (event : Debug.Event) :
    EventEffect server event (server.handleDebugEvent event).1
      (server.handleDebugEvent event).2 := by
  have terminal : ∀ state, event.snapshot.state = state → state.terminal = true →
      event.terminal = true := by
    intro state known isTerminal
    rw [Debug.Event.terminal, known]
    exact isTerminal
  unfold Server.handleDebugEvent
  dsimp only
  split
  next state => exact .created state
  next state => exact .running state
  next state =>
    split
    next taken => exact .laterStop state taken
    rename_i stop initial
    split
    next left_ => exact .suppressed state initial left_
    next shown => exact .firstStop state initial (by simpa using shown)
  next state =>
    have messages : Server.outputMessages event.snapshot ++ [.exited 0, .terminated] =
        (Server.outputMessages event.snapshot ++ [.exited 0]) ++ [.terminated] := by
      simp
    rw [messages]
    refine .ended (terminal _ state rfl) (by simp [terminated_notMem_output]) ?_
    intro msg member
    rcases mem_append.mp member with output | exited
    · exact response_notMem_output output
    · cases mem_singleton.mp exited
      simp
  next state =>
    have messages : Server.outputMessages event.snapshot ++
          [.output .stderr (.failure (Server.failureMessage event.snapshot)), .exited 1,
            .terminated] =
        (Server.outputMessages event.snapshot ++
          [.output .stderr (.failure (Server.failureMessage event.snapshot)),
            .exited 1]) ++ [.terminated] := by
      simp
    rw [messages]
    refine .ended (terminal _ state rfl) (by simp [terminated_notMem_output]) ?_
    intro msg member
    rcases mem_append.mp member with output | failed
    · exact response_notMem_output output
    · rcases mem_pair.mp failed with rfl | rfl
      · simp
      · simp
  next state => exact @ended _ _ [] (terminal _ state rfl) (by simp) (by simp)

theorem sameLaunch (effect : EventEffect server event after translation) :
    server.SameLaunch after := by
  cases effect with
  | _ =>
    exact ⟨rfl, rfl, rfl, rfl, rfl⟩

end EventEffect

/-- Where the watch goroutine goes after a translation. -/
def Server.Translation.pc : Server.Translation → WatcherPC
  | .write messages afterwards => .writing messages afterwards .events
  | .resume => .continuing

namespace Machine

theorem translate_eq (m : Machine) (event : Debug.Event) :
    m.translate event = { m with
        server := (m.server.handleDebugEvent event).1
        watcher := (m.server.handleDebugEvent event).2.pc } := by
  unfold translate
  split
  next handled =>
    rw [handled]
    rfl
  next handled =>
    rw [handled]
    rfl

/-- The steps of `cleanup`. -/
inductive CleanupEffect (m : Machine) (locked : Bool) (result : RunEnd) :
    CleanupPC → Machine → Prop
  | takePendingLaunch : CleanupEffect m locked result .takePendingLaunch { m with
          server := { m.server with pendingLaunch := none }
          request := .cleaning .invalidateHandles locked result }
  | invalidateHandles : CleanupEffect m locked result .invalidateHandles { m with
          server := m.server.invalidateHandles
          request := .cleaning .cancelWatch locked result }
  | skip (unlaunched : m.debugger = none) :
      CleanupEffect m locked result .cancelWatch
        { m with request := .cleaning .closeServices locked result }
  | call {pc} {action : Debug.SessionAction} {later : CleanupPC} {dbg next : Debug.SessionMachine}
      (known : m.debugger = some dbg)
      (called : (pc, action, later) = (.cancelWatch, .unsubscribe 0, .terminateSession) ∨
        (pc, action, later) = (.terminateSession, .terminateExecution [], .detachSession) ∨
        (pc, action, later) = (.beginClose, .beginClose, .awaitClose))
      (stepped : dbg.step action = some next) :
      CleanupEffect m locked result pc { m with
          debugger := some next
          request := .cleaning later locked result }
  | detach : CleanupEffect m locked result .detachSession { m with
          registered := false
          request := .cleaning .beginClose locked result }
  | await {dbg : Debug.SessionMachine} (known : m.debugger = some dbg)
      (closed : dbg.session.close.state = .finished) :
      CleanupEffect m locked result .awaitClose
        { m with request := .cleaning .closeServices locked result }
  | finish :
      CleanupEffect m locked result .closeServices { m with request := .ended result }

variable {next m : Machine} {locked : Bool} {result : RunEnd} {host : Host} {action : Action}

theorem CleanupEffect.of_cleanupStep {pc : CleanupPC}
    (taken : m.cleanupStep locked result pc = some next) :
    CleanupEffect m locked result pc next := by
  revert taken
  fun_cases cleanupStep m locked result pc
  all_goals intro taken; cases taken
  · exact .takePendingLaunch
  · exact .invalidateHandles
  next unlaunched => exact .skip unlaunched
  next dbg known after stepped =>
    exact .call known (.inl rfl) stepped
  next dbg known => exact .call known (.inr (.inl rfl)) rfl
  · exact .detach
  next dbg known after stepped =>
    exact .call known (.inr (.inr rfl)) stepped
  next dbg known closed => exact .await known closed
  · exact .finish

inductive RequestEffect (host : Host) (answers : Answers) (m : Machine) :
    Machine → Prop
  | answer {result : Except GoError Body} {req : Nat} {server : Server}
      (owes : m.request.owing = some req)
      (launchFails : m.request = .handling req .launch → ∃ err, result = .error err)
      (same : m.server.SameCourse server) (unheld : m.request.holds = false) :
      RequestEffect host answers m
        ({ m with server := server }.respond req result)
  | replace {result : Except GoError Body} {req : Nat} {arguments : SetBreakpointsArguments}
      {sourceName clientPath : String} {requests : List BreakpointRequest}
      {results : List Breakpoint} {server : Server}
      (at_ : m.request = .handling req (.setBreakpoints arguments))
      (planned : m.server.planBreakpoints host arguments answers.source =
        .replace sourceName clientPath requests)
      (free : m.watcher.holds = false) (answered : answers.replaced = .ok results)
      (committed : m.server.commitBreakpoints requests results = .ok server) :
      RequestEffect host answers m ({ m with
          server := server
          installed := Function.update m.installed m.server.owned.program
            results }.respond req result)
  | launch {req : Nat} {session : LaunchedSession}
      (at_ : m.request = .handling req .launch)
      (fresh : m.server.launched = false) :
      RequestEffect host answers m { m with
          server :=
            { m.server with
              owned := ⟨session.program, session.stopOnEntry,
                newSourceCoordinates session.text m.server.client⟩
              launched := true
              pendingLaunch := some req }
          debugger := some { Debug.SessionMachine.init session.id session.runtime with
              session := (Debug.Session.newSession session.id session.runtime).subscribe 0 }
          registered := true
          request := .announcing
          launchedBy := some req }
  | announce (at_ : m.request = .announcing) :
      RequestEffect host answers m { m.write [.initialized] with request := .arming }
  | arm (at_ : m.request = .arming) (free : m.watcher.holds = false) :
      RequestEffect host answers m { m with
          server := { m.server with initialStop := some .new }
          request := .idle
          watcher := .receiving .events }
  | startFails {err : List Cause} {req : Nat} {dbg : Debug.SessionMachine}
      (at_ : m.request = .handling req .configurationDone)
      (free : m.watcher.holds = false) (known : m.debugger = some dbg)
      (unconfigured : m.server.configured = false) (refused : err ≠ []) :
      RequestEffect host answers m { m with
          server :=
            { m.server with
              initialStop := none, pendingLaunch := none, disconnected := true }
          written := m.written ++ [.response req (.ok .empty)] ++
            launchResponses m.server (.error err)
          request := .cleaning .takePendingLaunch true .returned }
  | start {req : Nat} {dbg next : Debug.SessionMachine} {server : Server}
      (at_ : m.request = .handling req .configurationDone)
      (free : m.watcher.holds = false) (known : m.debugger = some dbg)
      (launched : m.server.launched = true)
      (unconfigured : m.server.configured = false)
      (accepted : ∃ snapshot, dbg.session.startCommand [] .created = .ok (snapshot, next.session))
      (stepped : dbg.step (.start []) = some next)
      (armed : m.server.startAccepted = some server) :
      RequestEffect host answers m { m with
          server := { server with pendingLaunch := none }
          debugger := some next
          written := m.written ++ [.response req (.ok .empty)] ++
            launchResponses m.server (.ok .empty)
          startedBy := some req
          request := .idle }
  | startUnarmed {req : Nat} {dbg next : Debug.SessionMachine}
      (at_ : m.request = .handling req .configurationDone)
      (free : m.watcher.holds = false) (known : m.debugger = some dbg)
      (launched : m.server.launched = true)
      (unconfigured : m.server.configured = false)
      (accepted : ∃ snapshot, dbg.session.startCommand [] .created = .ok (snapshot, next.session))
      (stepped : dbg.step (.start []) = some next)
      (unarmed : m.server.initialStop = none) :
      RequestEffect host answers m { m with
          debugger := some next
          written := m.written ++ [.response req (.ok .empty)]
          startedBy := some req
          request := .cleaning .takePendingLaunch false .panicked }
  | misanswered {req : Nat} {arguments : SetBreakpointsArguments}
      {sourceName clientPath : String} {requests : List BreakpointRequest}
      {results : List Breakpoint} {panic : Panic}
      (at_ : m.request = .handling req (.setBreakpoints arguments))
      (planned : m.server.planBreakpoints host arguments answers.source =
        .replace sourceName clientPath requests)
      (answered : answers.replaced = .ok results)
      (failed : m.server.breakpoints.replace m.server.owned.program requests
        results = .error panic) :
      RequestEffect host answers m { m with
          installed := Function.update m.installed m.server.owned.program
            results }.panic
  | overflow {thread} {req : Nat} {startFrame levels : Int64}
      {frames : List Debug.Frame} {panic : Panic}
      (at_ : m.request = .handling req (.stackTrace thread startFrame levels))
      (passed : m.server.configuredDebug true = true ∧ thread = threadID)
      (read : m.inspect answers.ctxErr answers.frames = .ok frames)
      (started : 0 ≤ startFrame.toInt ∧ startFrame.toInt ≤ frames.length)
      (failed : pageFrames startFrame levels frames = .error panic) :
      RequestEffect host answers m m.panic
  | requestResume {kind thread} {req : Nat} {dbg next : Debug.SessionMachine}
      (at_ : m.request = .handling req (.resume kind thread))
      (free : m.watcher.holds = false)
      (configured : m.server.configuredDebug true = true)
      (known : m.debugger = some dbg)
      (stepped : dbg.step (.requestResume 0 kind) = some next) :
      RequestEffect host answers m
        { m with debugger := some next, request := .resuming req kind }
  | resumeRefused {kind ctxErr} {err : GoError} {req : Nat}
      {dbg next : Debug.SessionMachine} (at_ : m.request = .resuming req kind)
      (known : m.debugger = some dbg)
      (refused : resumeError dbg ctxErr = err) (isError : err ≠ [])
      (stepped : dbg.step (.commitResume 0 ctxErr) = some next) :
      RequestEffect host answers m
        ({ m with debugger := some next }.respond req (.error err))
  | resume {kind ctxErr} {req : Nat}
      {dbg next : Debug.SessionMachine} (at_ : m.request = .resuming req kind)
      (known : m.debugger = some dbg) (accepted : resumeError dbg ctxErr = [])
      (stepped : dbg.step (.commitResume 0 ctxErr) = some next) :
      RequestEffect host answers m ({ m with
          debugger := some next
          server := m.server.resumeAccepted }.respond req (.ok (resumeBody kind)))
  | terminate {restart : Bool} {result : Except GoError Body} {req : Nat}
      {dbg next : Debug.SessionMachine}
      {server : Server} (at_ : m.request = .handling req (.terminate restart))
      (free : m.watcher.holds = false) (known : m.debugger = some dbg)
      (stepped : next = dbg ∨ next = dbg.requestTermination)
      (server_ : server = { m.server with pendingLaunch := none } ∨
        server = { m.server with
          pendingLaunch := none, handles := m.server.handles.invalidate }) :
      RequestEffect host answers m { m with
          server := server
          debugger := some next
          written := m.written ++
            launchResponses m.server
              (.error [.message "launch terminated before configurationDone"]) ++
            [.response req result]
          request := .idle }
  | disconnect {restart suspendDebuggee : Bool} {req : Nat}
      (at_ : m.request = .handling req (.disconnect restart suspendDebuggee))
      (free : m.watcher.holds = false) :
      RequestEffect host answers m { m with
          server := { m.server with pendingLaunch := none, disconnected := true }
          written := m.written ++
            launchResponses m.server
              (.error [.message "launch disconnected before configurationDone"]) ++
            [.response req (.ok .empty)]
          request := .cleaning .takePendingLaunch true .returned }
  | lookUp {pc} {req : Nat} (owes : m.request.owing = some req)
      (notLaunch : ∀ arguments, m.request = .handling req arguments →
        arguments ≠ .launch)
      (goes : (∃ reference, pc = .expanding req reference) ∨
        ∃ inspection, pc = .inspecting req inspection)
      (forward : pc.stage < m.request.stage) :
      RequestEffect host answers m { m with request := pc }
  | inspect {reading : Reading} {req : Nat} {dbg : Debug.SessionMachine}
      (owes : m.request.owing = some req)
      (notLaunch : ∀ arguments, m.request = .handling req arguments →
        arguments ≠ .launch)
      (asks : (∃ thread startFrame levels,
          m.request = .handling req (.stackTrace thread startFrame levels)) ∨
        ∃ inspection, m.request = .inspecting req inspection)
      (known : m.debugger = some dbg) (stopped : dbg.session.state = .stopped) :
      RequestEffect host answers m { m with
          request := .allocating req reading [] (some dbg.session.sequence) }
  | readScope {arguments : VariablesArguments} {items} {req : Nat}
      (at_ : m.request = .handling req (.variablesRequest arguments))
      (isLive : m.server.handles.Live arguments.reference) :
      RequestEffect host answers m { m with
          request := .allocating req (.expansion items) []
            (m.origins arguments.reference) }
  | allocate {reading : Reading} {handles : List Int} {readAt : Option Nat} {payload} {req : Nat}
      (at_ : m.request = .allocating req reading handles readAt)
      (wanted : handles.length < (reading.payloads host m.server).length) :
      RequestEffect host answers m { m with
          server := { m.server with handles := (m.server.handles.allocate payload).2 }
          origins := Function.update m.origins
            (m.server.handles.allocate payload).1 readAt
          request := .allocating req reading
            (handles ++ [(m.server.handles.allocate payload).1]) readAt }
  | cleanup {pc} {locked : Bool} {result : RunEnd} {next : Machine}
      (at_ : m.request = .cleaning pc locked result)
      (effect : CleanupEffect m locked result pc next) :
      RequestEffect host answers m next

namespace RequestEffect

variable {options : InitializeClientOptions} {outcome : Except GoError LaunchedSession}
  {results : List Breakpoint} {later : RequestPC} {frameID reference : Int} {reading : Reading}
  {handles : List Int} {readAt : Option Nat} {restart suspendDebuggee : Bool} {host : Host}
  {answers : Answers} {m next : Machine} {req : Nat}

variable {pc : RequestPC}

section

variable {err : GoError} (at_ : m.request = pc) (owes : pc.owing = some req)
  (free : pc.holds = false)
include at_ owes free

theorem responds {result : Except GoError Body} (other : pc ≠ .handling req .launch) :
    RequestEffect host answers m (m.respond req result) := by
  subst at_
  exact .answer owes (fun launching => absurd launching other)
    ⟨rfl, rfl, rfl, rfl, rfl, rfl, rfl, rfl⟩ free

theorem fails : RequestEffect host answers m (m.respond req (.error err)) := by
  subst at_
  exact .answer owes (fun _ => ⟨err, rfl⟩) ⟨rfl, rfl, rfl, rfl, rfl, rfl, rfl, rfl⟩ free

end

theorem of_handleInitialize (at_ : m.request = .handling req (.initializeRequest options)) :
    RequestEffect host answers m (m.handleInitialize req options) := by
  fun_cases handleInitialize m req options
  · exact fails at_ rfl rfl
  · exact fails at_ rfl rfl
  · exact .answer (by rw [at_]; rfl)
      (fun launching => by cases at_.symm.trans launching)
      ⟨rfl, rfl, rfl, rfl, rfl, rfl, rfl, rfl⟩ (by rw [at_]; rfl)

theorem of_handleLaunch (at_ : m.request = .handling req .launch) :
    RequestEffect host answers m (m.handleLaunch req outcome) := by
  fun_cases handleLaunch m req outcome
  · exact fails at_ rfl rfl
  · exact fails at_ rfl rfl
  next unlaunched session =>
    apply RequestEffect.launch at_
    by_contra launched
    exact unlaunched (.inr (by simpa using launched))

variable {ctxErr : GoError} {dbg : Debug.SessionMachine}

theorem startCommand_of_startError (accepted : m.startError dbg ctxErr = []) :
    ∃ snapshot started, dbg.session.startCommand [] .created = .ok (snapshot, started) := by
  unfold startError at accepted
  split at accepted
  next refused => exact absurd accepted refused
  split at accepted
  next err failed =>
    subst accepted
    exfalso
    unfold Debug.Session.startCommand at failed
    split at failed
    next ctx => exact ctx rfl
    split at failed
    · cases failed
    split at failed
    · split at failed
      · cases failed
      · cases failed
    · cases failed
  next started succeeded => exact ⟨started.1, started.2, succeeded⟩

theorem of_handleConfigurationDone (at_ : m.request = .handling req .configurationDone)
    (taken : m.handleConfigurationDone req ctxErr = some next) :
    RequestEffect host answers m next := by
  have passes : ¬(m.server.launched = false ∨ m.server.configured = true) →
      m.server.launched = true ∧ m.server.configured = false := by simp
  -- an accepted start moves the session as its step does
  have accepts : ∀ {dbg : Debug.SessionMachine},
      ¬m.startError dbg ctxErr ≠ [] →
      ∃ snapshot, dbg.session.startCommand [] .created =
        .ok (snapshot, (dbg.startCommand [] .created ⟨false, .started⟩).session) := by
    intro dbg accepted
    obtain ⟨snapshot, started, succeeded⟩ :=
      startCommand_of_startError (by simpa using accepted)
    refine ⟨snapshot, ?_⟩
    simp [Debug.SessionMachine.startCommand, succeeded]
  revert taken
  fun_cases handleConfigurationDone m req ctxErr
  all_goals intro taken; cases taken
  · exact fails at_ rfl rfl
  next passed free dbg known _ refused _ =>
    exact .startFails at_ (by simpa using free) known (passes passed).2 refused
  next passed free dbg known _ accepted _ unarmed =>
    refine .startUnarmed at_ (by simpa using free) known (passes passed).1
      (passes passed).2 (accepts accepted) rfl ?_
    unfold Server.startAccepted at unarmed
    split at unarmed
    next absent => exact absent
    · cases unarmed
  next passed free dbg known _ accepted _ server armed =>
    have pending : server.pendingLaunch = m.server.pendingLaunch := by
      unfold Server.startAccepted at armed
      split at armed
      · cases armed
      · cases armed
        rfl
    simp only [answerLaunch, launchResponses, pending, write]
    exact .start at_ (by simpa using free) known (passes passed).1
      (passes passed).2 (accepts accepted) rfl armed

theorem replaced_of_outcome {results : List Breakpoint}
    (outcome : (if m.refused answers.ctxErr ≠ [] then
        Except.error (m.refused answers.ctxErr)
      else dbg.session.replaceBreakpoints [] answers.replaced) = .ok results) :
    answers.replaced = .ok results := by
  split at outcome
  · cases outcome
  unfold Debug.Session.replaceBreakpoints at outcome
  split at outcome
  · cases outcome
  · split at outcome
    · cases outcome
    · exact outcome

theorem of_handleSetBreakpoints (at_ : m.request = .handling req (.setBreakpoints arguments))
    (taken : m.handleSetBreakpoints host req arguments answers = some next) :
    RequestEffect host answers m next := by
  unfold handleSetBreakpoints at taken
  split at taken
  · cases taken
    exact responds at_ rfl rfl nofun
  rename_i sourceName clientPath requests planned
  split at taken
  · cases taken
  rename_i free
  have isFree : m.watcher.holds = false := by simpa using free
  split at taken
  · cases taken
  rename_i dbg known
  have answered := @replaced_of_outcome answers m dbg
  generalize (if m.refused answers.ctxErr ≠ [] then
      Except.error (m.refused answers.ctxErr)
    else dbg.session.replaceBreakpoints [] answers.replaced) = outcome
    at taken answered
  cases outcome with
  | error =>
    cases taken
    exact responds at_ rfl rfl nofun
  | ok results =>
    simp only [Server.finishBreakpoints] at taken
    cases commits : m.server.commitBreakpoints requests results with
    | error panic =>
      rw [commits] at taken
      cases taken
      unfold Server.commitBreakpoints at commits
      split at commits
      next panic replaces =>
        exact .misanswered at_ planned (answered rfl) replaces
      · cases commits
    | ok server =>
      rw [commits] at taken
      cases taken
      exact .replace at_ planned isFree (answered rfl) commits

variable {thread : Int} {kind : Debug.ResumeKind}

theorem of_handleResume (at_ : m.request = .handling req (.resume kind thread))
    (taken : m.handleResume req kind thread ctxErr = some next) :
    RequestEffect host answers m next := by
  have configured : ¬(m.server.configuredDebug true = false ∨ thread ≠ threadID) →
      m.server.configuredDebug true = true := by
    intro passed
    by_contra other
    exact passed (.inl (by simpa using other))
  revert taken
  fun_cases handleResume m req kind thread ctxErr
  all_goals intro taken; cases taken
  · exact fails at_ rfl rfl
  · exact responds at_ rfl rfl nofun
  next passed free dbg known _ after stepped =>
    exact .requestResume at_ (by simpa using free) (configured passed) known stepped

theorem of_commitResume (at_ : m.request = .resuming req kind)
    (taken : m.commitResume req kind ctxErr = some next) :
    RequestEffect host answers m next := by
  revert taken
  fun_cases commitResume m req kind ctxErr
  all_goals intro taken; cases taken
  next dbg known after stepped _ refused =>
    exact .resumeRefused at_ known rfl refused stepped
  next dbg known after stepped _ accepted =>
    exact .resume at_ known (by simpa using accepted) stepped

theorem of_handlePause (at_ : m.request = .handling req (.pause thread))
    (taken : m.handlePause req thread answers = some next) :
    RequestEffect host answers m next := by
  revert taken
  fun_cases handlePause m req thread answers
  all_goals intro taken; cases taken
  all_goals exact responds at_ rfl rfl nofun

theorem of_handleThreads (at_ : m.request = .handling req .threads) :
    RequestEffect host answers m (m.handleThreads req) := by
  fun_cases handleThreads m req <;> exact responds at_ rfl rfl nofun

theorem stopped_of_inspect {Data : Type} {answer : Except GoError Data} {data : Data}
    (read : m.inspect ctxErr answer = .ok data) :
    ∃ dbg, m.debugger = some dbg ∧ dbg.session.state = .stopped ∧
      m.pauseNumber = some dbg.session.sequence := by
  unfold Machine.inspect at read
  split at read
  · cases read
  split at read
  · cases read
  rename_i dbg known
  refine ⟨dbg, known, Debug.Session.stopped_of_inspect read, ?_⟩
  unfold pauseNumber
  rw [known]
  rfl

theorem of_handleStackTrace {startFrame levels : Int64}
    (at_ : m.request = .handling req (.stackTrace thread startFrame levels)) :
    RequestEffect host answers m
      (m.handleStackTrace req thread startFrame levels answers) := by
  fun_cases handleStackTrace m req thread startFrame levels answers
  · exact responds at_ rfl rfl nofun
  · exact responds at_ rfl rfl nofun
  · exact responds at_ rfl rfl nofun
  next passed frames read inside panic failed =>
    rw [not_or, Int64.lt_iff_toInt_lt] at inside
    rw [not_or, Bool.not_eq_false, not_not] at passed
    exact .overflow at_ passed read ⟨Int.not_lt.mp inside.1, Int.not_lt.mp inside.2⟩ failed
  next frames read _ page _ =>
    obtain ⟨dbg, known, stopped, number⟩ := stopped_of_inspect read
    rw [number]
    refine .inspect (by rw [at_]; rfl) ?_ (.inl ⟨thread, startFrame, levels, at_⟩) known stopped
    rintro _ handling rfl
    cases at_.symm.trans handling

theorem looksUp (at_ : m.request = pc) (owes : pc.owing = some req)
    (other : pc ≠ .handling req .launch) (goes : (∃ reference, later = .expanding req reference) ∨
      ∃ inspection, later = .inspecting req inspection) (forward : later.stage < pc.stage) :
    RequestEffect host answers m { m with request := later } := by
  subst at_
  refine .lookUp owes ?_ goes forward
  rintro _ handling rfl
  exact other handling

theorem of_handleScopes (at_ : m.request = .handling req (.scopes frameID)) :
    RequestEffect host answers m (m.handleScopes req frameID) := by
  fun_cases handleScopes m req frameID
  · exact responds at_ rfl rfl nofun
  · exact responds at_ rfl rfl nofun
  · exact responds at_ rfl rfl nofun
  · exact looksUp at_ rfl nofun (.inr ⟨_, rfl⟩) (by simp [RequestPC.stage])

theorem of_handleVariables {arguments : VariablesArguments}
    (at_ : m.request = .handling req (.variablesRequest arguments)) :
    RequestEffect host answers m (m.handleVariables req arguments) := by
  fun_cases handleVariables m req arguments
  · exact responds at_ rfl rfl nofun
  · exact responds at_ rfl rfl nofun
  · exact looksUp at_ rfl nofun (.inl ⟨_, rfl⟩) (by simp [RequestPC.stage])
  · exact responds at_ rfl rfl nofun
  next items found =>
    refine .readScope at_ (.inr (.inl ?_))
    have status := congrArg Prod.snd found
    exact AList.lookup_isSome.mp (HandleTable.current_of_status status)

theorem of_expandVariable (at_ : m.request = .expanding req reference) :
    RequestEffect host answers m (m.expandVariable req reference) := by
  fun_cases expandVariable m req reference
  · exact fails at_ rfl rfl
  · exact responds at_ rfl rfl nofun
  · exact looksUp at_ rfl nofun (.inr ⟨_, rfl⟩) (by simp [RequestPC.stage])

theorem of_handleEvaluate {arguments : EvaluateArguments}
    (at_ : m.request = .handling req (.evaluate arguments)) :
    RequestEffect host answers m (m.handleEvaluate req arguments) := by
  have looks : ∀ inspection, RequestEffect host answers m
      { m with request := .inspecting req inspection } := fun inspection =>
    looksUp at_ rfl nofun (.inr ⟨inspection, rfl⟩) (by simp [RequestPC.stage])
  fun_cases handleEvaluate m req arguments
  · exact responds at_ rfl rfl nofun
  · exact responds at_ rfl rfl nofun
  · exact looks (.evaluate 0)
  · exact looks _
  · exact responds at_ rfl rfl nofun
  · exact responds at_ rfl rfl nofun
  · exact responds at_ rfl rfl nofun

variable {inspection : Inspection}

theorem stopped_of_readInspection (read : m.readInspection answers inspection = .ok reading) :
    ∃ dbg, m.debugger = some dbg ∧ dbg.session.state = .stopped ∧
      m.pauseNumber = some dbg.session.sequence := by
  cases inspection with
  | scopes | expand =>
    cases found : m.inspect answers.ctxErr answers.items with
    | error => simp [readInspection, found, Except.map] at read
    | ok => exact stopped_of_inspect found
  | evaluate =>
    cases found : m.inspect answers.ctxErr answers.value with
    | error => simp [readInspection, found, Except.map] at read
    | ok => exact stopped_of_inspect found

theorem of_handleInspection (at_ : m.request = .inspecting req inspection) :
    RequestEffect host answers m (m.handleInspection req inspection answers) := by
  fun_cases handleInspection m req inspection answers
  · exact responds at_ rfl rfl nofun
  next reading read =>
    obtain ⟨dbg, known, stopped, number⟩ := stopped_of_readInspection read
    rw [number]
    refine .inspect (by rw [at_]; rfl) ?_ (.inr ⟨inspection, at_⟩) known stopped
    rintro _ handling rfl
    cases at_.symm.trans handling

theorem of_allocateHandle (at_ : m.request = .allocating req reading handles readAt) :
    RequestEffect host answers m
      (m.allocateHandle host req reading handles readAt) := by
  fun_cases allocateHandle host m req reading handles readAt
  · exact responds at_ rfl rfl nofun
  · exact responds at_ rfl rfl nofun
  next payload found _ =>
    obtain ⟨wanted, _⟩ := List.getElem?_eq_some_iff.mp found
    exact .allocate at_ wanted

theorem of_handleTerminate (at_ : m.request = .handling req (.terminate restart))
    (taken : m.handleTerminate req restart ctxErr = some next) :
    RequestEffect host answers m next := by
  revert taken
  fun_cases handleTerminate m req restart ctxErr
  all_goals intro taken; cases taken
  · exact responds at_ rfl rfl nofun
  next free dbg known _ _ =>
    have effect : RequestEffect host answers m { m with
          server := { m.server with pendingLaunch := none }
          debugger := some dbg
          written := _
          request := .idle } :=
      @terminate _ _ _ restart (.error (m.refused ctxErr)) req dbg dbg _ at_
        (by simpa using free) known (.inl rfl) (.inl rfl)
    rw [← known] at effect
    exact effect
  next free dbg known _ _ =>
    exact .terminate at_ (by simpa using free) known (.inr rfl) (.inr rfl)

theorem of_handleDisconnect (at_ : m.request = .handling req (.disconnect restart suspendDebuggee))
    (taken : m.handleDisconnect req restart suspendDebuggee = some next) :
    RequestEffect host answers m next := by
  revert taken
  fun_cases handleDisconnect m req restart suspendDebuggee
  all_goals intro taken; cases taken
  · exact responds at_ rfl rfl nofun
  next free _ => exact .disconnect at_ (by simpa using free)

theorem of_handleRequest {arguments : Request} (at_ : m.request = .handling req arguments)
    (taken : m.handleRequest host req answers arguments = some next) :
    RequestEffect host answers m next := by
  revert taken
  fun_cases handleRequest host m req answers arguments
  all_goals intro taken
  · cases taken
    exact of_handleInitialize at_
  · cases taken
    exact of_handleLaunch at_
  · exact of_handleConfigurationDone at_ taken
  · exact of_handleSetBreakpoints at_ taken
  · exact of_handleResume at_ taken
  · exact of_handlePause at_ taken
  · cases taken
    exact of_handleThreads at_
  · cases taken
    exact of_handleStackTrace at_
  · cases taken
    exact of_handleScopes at_
  · cases taken
    exact of_handleVariables at_
  · cases taken
    exact of_handleEvaluate at_
  · exact of_handleTerminate at_ taken
  · exact of_handleDisconnect at_ taken
  · cases taken
    exact responds at_ rfl rfl nofun

theorem of_handleStep (taken : m.handleStep host answers = some next) :
    RequestEffect host answers m next := by
  revert taken
  fun_cases handleStep host m answers
  all_goals intro taken
  · cases taken
  · cases taken
  next at_ => exact of_handleRequest at_ taken
  next at_ =>
    cases taken
    exact .announce at_
  · cases taken
  next at_ free =>
    cases taken
    exact .arm at_ (by simpa using free)
  next at_ => exact of_commitResume at_ taken
  next at_ =>
    cases taken
    exact of_expandVariable at_
  next at_ =>
    cases taken
    exact of_handleInspection at_
  next at_ =>
    cases taken
    exact of_allocateHandle at_
  next at_ => exact .cleanup at_ (CleanupEffect.of_cleanupStep taken)

end RequestEffect

inductive WatchEffect (m : Machine) : Machine → Prop
  | receive {sub : Broadcast.Subscriber Debug.Event Cause} {event : Debug.Event} {rest}
      {dbg next : Debug.SessionMachine} (at_ : m.watcher = .receiving .events)
      (known : m.debugger = some dbg)
      (found : dbg.session.watchers 0 = some sub)
      (buffered : sub.events.buffer = event :: rest)
      (stepped : dbg.step (.readEvent 0) = some next) :
      WatchEffect m { m with debugger := some next, watcher := .translating event }
  | eventsEnd {sub : Broadcast.Subscriber Debug.Event Cause} {dbg : Debug.SessionMachine}
      (at_ : m.watcher = .receiving .events)
      (known : m.debugger = some dbg)
      (found : dbg.session.watchers 0 = some sub)
      (empty : sub.events.buffer = []) (closed : sub.closed = true) :
      WatchEffect m { m with watcher := .receiving .errors }
  | receiveError {sub : Broadcast.Subscriber Debug.Event Cause} {err : Cause} {rest}
      {dbg next : Debug.SessionMachine}
      (at_ : m.watcher = .receiving .errors) (known : m.debugger = some dbg)
      (found : dbg.session.watchers 0 = some sub)
      (buffered : sub.errors.buffer = err :: rest)
      (stepped : dbg.step (.readError 0) = some next) :
      WatchEffect m { m with debugger := some next, watcher := .reporting err }
  | errorsEnd {sub : Broadcast.Subscriber Debug.Event Cause} {dbg : Debug.SessionMachine}
      (at_ : m.watcher = .receiving .errors)
      (known : m.debugger = some dbg)
      (found : dbg.session.watchers 0 = some sub)
      (empty : sub.errors.buffer = []) (closed : sub.closed = true) :
      WatchEffect m { m with watcher := .finishing }
  | translate {translation : Server.Translation} {event : Debug.Event} {server : Server}
      (at_ : m.watcher = .translating event) (free : m.request.holds = false)
      (effect : EventEffect m.server event server translation) :
      WatchEffect m { m with server := server, watcher := translation.pc }
  | continueRefused {dbg : Debug.SessionMachine} (at_ : m.watcher = .continuing)
      (known : m.debugger = some dbg) (detached : m.registered = false) :
      WatchEffect m { m with
          watcher := .writing (Server.continueFailed [.debugSessionNotFound]) .keep .events }
  | continueEntry {dbg next : Debug.SessionMachine} (at_ : m.watcher = .continuing)
      (known : m.debugger = some dbg)
      (stepped : dbg.step (.requestResume 1 .continueExecution) = some next) :
      WatchEffect m { m with debugger := some next, watcher := .committing }
  | commitRefused {dbg next : Debug.SessionMachine} (at_ : m.watcher = .committing)
      (known : m.debugger = some dbg) (refused : resumeError dbg [] ≠ [])
      (stepped : dbg.step (.commitResume 1 []) = some next) :
      WatchEffect m { m with
          debugger := some next
          watcher := .writing (Server.continueFailed (resumeError dbg [])) .keep .events }
  | commitEntry {dbg next : Debug.SessionMachine} (at_ : m.watcher = .committing)
      (known : m.debugger = some dbg) (accepted : resumeError dbg [] = [])
      (stepped : dbg.step (.commitResume 1 []) = some next) :
      WatchEffect m { m with
          debugger := some next
          server :=
            { m.server with
              breakpoints := m.server.breakpoints.commandStarted }
          watcher := .receiving .events }
  | write {msg : Message} {rest afterwards} {loop : WatchLoop}
      (at_ : m.watcher = .writing (msg :: rest) afterwards loop) :
      WatchEffect m
        { m.write [msg] with watcher := .writing rest afterwards loop }
  | leave {afterwards} {loop : WatchLoop} (at_ : m.watcher = .writing [] afterwards loop) :
      WatchEffect m { m with
          server :=
            { m.server with
              breakpoints := afterwards.apply m.server.breakpoints }
          watcher := .receiving loop }
  | report {err : Cause} (at_ : m.watcher = .reporting err) (free : m.request.holds = false) :
      WatchEffect m
        { m with watcher := .writing (Server.watchFailed [err]) .keep .errors }
  | finish (at_ : m.watcher = .finishing) (free : m.request.holds = false) :
      WatchEffect m { m with
          server :=
            { m.server with
              initialStop := none
              breakpoints := m.server.breakpoints.finish }
          watcher := .ended }

namespace WatchEffect

theorem of_receive {sub : Broadcast.Subscriber Debug.Event Cause} {loop : WatchLoop}
    {dbg : Debug.SessionMachine} (at_ : m.watcher = .receiving loop)
    (known : m.debugger = some dbg) (found : dbg.session.watchers 0 = some sub)
    (taken : m.receive dbg sub loop = some next) :
    WatchEffect m next := by
  revert taken
  fun_cases Machine.receive m dbg sub loop
  all_goals intro taken
  next event rest buffered =>
    obtain ⟨after, stepped, rfl⟩ := Option.map_eq_some_iff.mp taken
    exact .receive at_ known found buffered stepped
  next empty closed =>
    cases taken
    exact .eventsEnd at_ known found empty closed
  · cases taken
  next err rest buffered =>
    obtain ⟨after, stepped, rfl⟩ := Option.map_eq_some_iff.mp taken
    exact .receiveError at_ known found buffered stepped
  next empty closed =>
    cases taken
    exact .errorsEnd at_ known found empty closed
  · cases taken

theorem of_continueEntry (at_ : m.watcher = .continuing)
    (taken : m.continueEntry = some next) : WatchEffect m next := by
  revert taken
  fun_cases Machine.continueEntry m
  all_goals intro taken; cases taken
  next dbg known refused =>
    have detached : m.registered = false := by
      by_contra registered
      apply refused
      simp only [Machine.refused]
      rw [if_neg (by simp), if_pos (by simpa using registered)]
    have reason : m.refused [] = [.debugSessionNotFound] := by
      simp [Machine.refused, detached]
    rw [reason]
    exact .continueRefused at_ known detached
  next dbg known _ after stepped => exact .continueEntry at_ known stepped

theorem of_commitEntry (at_ : m.watcher = .committing)
    (taken : m.commitEntry = some next) : WatchEffect m next := by
  revert taken
  fun_cases Machine.commitEntry m
  all_goals intro taken; cases taken
  next dbg known after stepped _ refused =>
    exact .commitRefused at_ known refused stepped
  next dbg known after stepped _ accepted =>
    exact .commitEntry at_ known (by simpa using accepted) stepped

theorem of_watchStep (taken : m.watchStep = some next) :
    WatchEffect m next := by
  revert taken
  fun_cases watchStep m
  all_goals intro taken
  · cases taken
  · cases taken
  · cases taken
  · cases taken
  next at_ dbg known sub found => exact of_receive at_ known found taken
  · cases taken
  next event at_ free =>
    cases taken
    rw [translate_eq]
    exact .translate at_ (by simpa using free)
      (EventEffect.of_handleDebugEvent m.server event)
  next at_ => exact of_continueEntry at_ taken
  next at_ => exact of_commitEntry at_ taken
  next messages afterwards loop at_ =>
    cases taken
    cases messages with
    | nil => exact .leave at_
    | cons msg rest => exact .write at_
  · cases taken
  next err at_ free =>
    cases taken
    exact .report at_ (by simpa using free)
  · cases taken
  next at_ free =>
    cases taken
    exact .finish at_ (by simpa using free)

theorem frame (effect : WatchEffect m next) :
    next.request = m.request ∧ next.requests = m.requests ∧
      m.server.SameLaunch next.server ∧ next.launchedBy = m.launchedBy ∧
      next.startedBy = m.startedBy := by
  cases effect with
  | translate _ _ effect =>
    exact ⟨rfl, rfl, effect.sameLaunch, rfl, rfl⟩
  | _ =>
    exact ⟨rfl, rfl, ⟨rfl, rfl, rfl, rfl, rfl⟩, rfl, rfl⟩

theorem started (effect : WatchEffect m next) : m.watcher ≠ .unstarted := by
  intro unstarted
  have other : ∀ pc, m.watcher = pc → pc = .unstarted := by
    intro pc at_
    rw [← at_]
    exact unstarted
  cases effect with
  | receive at_ | eventsEnd at_ | receiveError at_
  | errorsEnd at_ | translate at_ | continueRefused at_
  | continueEntry at_ | commitRefused at_ | commitEntry at_
  | write at_ | leave at_ | report at_ | finish at_ => cases other _ at_

end WatchEffect

inductive Effect (host : Host) (m : Machine) : Action → Machine → Prop
  | read {req : Request} (at_ : m.request = .idle) :
      Effect host m (.read req) { m with
          requests := m.requests ++ [req]
          request := .handling m.requests.length req }
  | stopReading (at_ : m.request = .idle) :
      Effect host m .stopReading
        { m with request := .cleaning .takePendingLaunch false .returned }
  | handle {answers} {next : Machine} (effect : RequestEffect host answers m next) :
      Effect host m (.handle answers) next
  | watch {next : Machine} (effect : WatchEffect m next) : Effect host m .watch next
  | debugger {action : Debug.SessionAction} {dbg next : Debug.SessionMachine}
      (known : m.debugger = some dbg) (alone : spontaneous action = true)
      (stepped : dbg.step action = some next) :
      Effect host m (.debugger action) { m with debugger := some next }

theorem Effect.of_step (taken : m.step host action = some next) : Effect host m action next := by
  revert taken
  fun_cases Machine.step host m action
  all_goals intro taken
  next req at_ =>
    cases taken
    exact .read at_
  · cases taken
  next at_ =>
    cases taken
    exact .stopReading at_
  · cases taken
  next answers => exact .handle (.of_handleStep taken)
  · exact .watch (WatchEffect.of_watchStep taken)
  · cases taken
  next action dbg known alone =>
    obtain ⟨after, stepped, rfl⟩ := Option.map_eq_some_iff.mp taken
    exact .debugger known alone stepped
  · cases taken

end Machine

end Ferretd.Dap

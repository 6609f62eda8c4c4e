import Ferretd.Dap.Server

/-!
# The adapter machine

The adapter with the two goroutines that act on it, and the debug session they share.
The request goroutine reads one request after the other and runs its handler; the watch
goroutine translates the events of the session.  The event lock is held by a goroutine
at certain control points only.

A step is a stretch of one goroutine in which it touches nothing that the others can
see change: a handler up to its call of the debugger, one lookup or allocation of a
handle, one message of an event, one action of the debug session.  A section under the
event lock with a single call is one step, because around the call it only touches what
the lock protects.  Writes succeed.
-/

namespace Ferretd.Dap

open Library

/-- What the services of a successful launch returned. -/
structure LaunchedSession where
  program : String
  stopOnEntry : Bool
  text : List UInt8
  id : Nat
  runtime : Debug.RuntimeView

/-- The answers a step of the request goroutine may ask for: the state of the context,
and what the file system, the other services and the debugger say. -/
structure Answers where
  ctxErr : GoError
  launch : Except GoError LaunchedSession
  source : Server.SourceAnswer
  replaced : Except GoError (List Breakpoint)
  paused : GoError
  frames : Except GoError (List Debug.Frame)
  items : Except GoError (List Debug.Variable)
  value : Except GoError Debug.Value

/-- The control points of `cleanup`. -/
inductive CleanupPC where
  | takePendingLaunch
  | invalidateHandles
  | cancelWatch
  | terminateSession
  | detachSession
  | beginClose
  | awaitClose
  | closeServices

inductive RunEnd where
  | returned
  | panicked

/-- The control points of the request goroutine.  A number names a request by the
requests read before it. -/
inductive RequestPC where
  | idle
  | handling (req : Nat) (arguments : Request)
  | announcing
  | arming
  | resuming (req : Nat) (kind : Debug.ResumeKind)
  | expanding (req : Nat) (reference : Int)
  | inspecting (req : Nat) (inspection : Inspection)
  | allocating (req : Nat) (reading : Reading) (handles : List Int) (readAt : Option Nat)
  | cleaning (pc : CleanupPC) (locked : Bool) (result : RunEnd)
  | ended (result : RunEnd)

def RequestPC.holds : RequestPC → Bool
  | .resuming _ _ => true
  | .cleaning _ locked _ => locked
  | _ => false

inductive WatchLoop where
  | events
  | errors

inductive WatcherPC where
  | unstarted
  | receiving (loop : WatchLoop)
  | translating (event : Debug.Event)
  | continuing
  | committing
  | writing (messages : List Message) (afterwards : Server.Afterwards) (loop : WatchLoop)
  | reporting (err : Cause)
  | finishing
  | ended

def WatcherPC.holds : WatcherPC → Bool
  | .continuing | .committing | .writing _ _ _ => true
  | _ => false

/-- The adapter.  `registered` says that the debug manager still finds the session and
`installed` is the debugger's breakpoint set for each source.  The last three fields
record history: the launch request that was accepted, the `configurationDone` whose
start was, and, for each handle, the number of the session event whose pause its data
was read in. -/
structure Machine where
  server : Server
  debugger : Option Debug.SessionMachine
  registered : Bool
  installed : String → List Breakpoint
  request : RequestPC
  watcher : WatcherPC
  requests : List Request
  written : List Message
  launchedBy : Option Nat
  startedBy : Option Nat
  origins : Int → Option Nat

inductive Action where
  | read (req : Request)
  | stopReading
  | handle (answers : Answers)
  | watch
  | debugger (action : Debug.SessionAction)

namespace Machine

def new : Machine where
  server := .new
  debugger := none
  registered := false
  installed := fun _ => []
  request := .idle
  watcher := .unstarted
  requests := []
  written := []
  launchedBy := none
  startedBy := none
  origins := fun _ => none

variable (m : Machine)

def write (messages : List Message) : Machine :=
  { m with written := m.written ++ messages }

/-- Answer a request and return to the loop of `Run`. -/
def respond (req : Nat) (result : Except GoError Body) :
    Machine :=
  { m.write [.response req result] with request := .idle }

def fail (req : Nat) (text : String) : Machine :=
  m.respond req (.error [.message text])

/-- A panic: the locks a handler holds are released, the deferred cleanup of `Run` is
still carried out, and the process ends. -/
def panic : Machine :=
  { m with request := .cleaning .takePendingLaunch false .panicked }

def launchResponses (server : Server) (result : Except GoError Body) : List Message :=
  match server.pendingLaunch with
  | none => []
  | some req => [.response req result]

/-- `failPendingLaunch` and `resolvePendingLaunch`. -/
def answerLaunch (result : Except GoError Body) : Machine :=
  { m.write (launchResponses m.server result) with
    server := { m.server with pendingLaunch := none } }

/-- `Manager.session`: why a call does not get to the session. -/
def refused (ctxErr : GoError) : GoError :=
  if ctxErr ≠ [] then
    ctxErr
  else if m.registered then
    []
  else
    [.debugSessionNotFound]

/-! ## The request goroutine -/

def handleInitialize (req : Nat)
    (options : InitializeClientOptions) : Machine :=
  match options.normalized with
  | .error err => m.respond req (.error err)
  | .ok client =>
    if m.server.initialized then
      m.fail req "initialize may only be sent once"
    else
      { m with
        server := { m.server with client := client, initialized := true }
        }.respond req (.ok .capabilities)

/-- The subscription of the adapter is the one with handle zero. -/
def handleLaunch (req : Nat)
    (outcome : Except GoError LaunchedSession) : Machine :=
  if m.server.initialized = false ∨ m.server.launched = true then
    m.fail req "launch requires one successful initialize"
  else
    match outcome with
    | .error err => m.respond req (.error err)
    | .ok session =>
      { m with
        server :=
          { m.server with
            owned := ⟨session.program, session.stopOnEntry,
              newSourceCoordinates session.text m.server.client⟩
            launched := true
            pendingLaunch := some req }
        debugger := some { Debug.SessionMachine.init session.id session.runtime with
            session := (Debug.Session.newSession session.id session.runtime).subscribe 0 }
        registered := true
        request := .announcing
        launchedBy := some req }

/-- Why `StartSession` is refused; `[]` when it is accepted. -/
def startError (dbg : Debug.SessionMachine)
    (ctxErr : GoError) : GoError :=
  if m.refused ctxErr ≠ [] then
    m.refused ctxErr
  else
    match dbg.session.startCommand [] .created with
    | .error err => err
    | .ok _ => []

def handleConfigurationDone (req : Nat) (ctxErr : GoError) :
    Option Machine :=
  if m.server.launched = false ∨ m.server.configured = true then
    some (m.fail req "configurationDone requires one successful launch")
  else if m.watcher.holds then
    none
  else
    match m.debugger with
    | none => none
    | some dbg =>
      let answered := m.write [.response req (.ok .empty)]
      if m.startError dbg ctxErr ≠ [] then
        let failed :=
          { answered with
            server := { answered.server with initialStop := none }
            }.answerLaunch (.error (m.startError dbg ctxErr))
        some { failed with
          server := { failed.server with disconnected := true }
          request := .cleaning .takePendingLaunch true .returned }
      else
        let started :=
          { answered with
            debugger := some (dbg.startCommand [] .created ⟨false, .started⟩)
            startedBy := some req }
        match started.server.startAccepted with
        | none => some started.panic
        | some server =>
          some { { started with server := server }.answerLaunch (.ok .empty) with
            request := .idle }

variable (host : Host)

def handleSetBreakpoints (m : Machine) (req : Nat)
    (arguments : SetBreakpointsArguments) (answers : Answers) : Option Machine :=
  match m.server.planBreakpoints host arguments answers.source with
  | .answer result => some (m.respond req result)
  | .replace sourceName clientPath requests =>
    if m.watcher.holds then
      none
    else
      match m.debugger with
      | none => none
      | some dbg =>
        let outcome :=
          if m.refused answers.ctxErr ≠ [] then
            .error (m.refused answers.ctxErr)
          else
            dbg.session.replaceBreakpoints [] answers.replaced
        let installed :=
          match outcome with
          | .error _ => m.installed
          | .ok results =>
            Function.update m.installed m.server.owned.program results
        match m.server.finishBreakpoints sourceName clientPath requests outcome with
        | .error _ => some { m with installed := installed }.panic
        | .ok (server, result) =>
          some ({ m with installed := installed, server := server }.respond req result)

section

variable (req : Nat)

def handleResume (kind : Debug.ResumeKind)
    (thread : Int) (ctxErr : GoError) : Option Machine :=
  if m.server.configuredDebug true = false ∨ thread ≠ threadID then
    some (m.fail req "request requires the Ferret thread in a configured session")
  else if m.watcher.holds then
    none
  else
    match m.debugger with
    | none => none
    | some dbg =>
      if m.refused ctxErr ≠ [] then
        some (m.respond req (.error (m.refused ctxErr)))
      else
        match dbg.step (.requestResume 0 kind) with
        | none => none
        | some next =>
          some { m with
            debugger := some next, request := .resuming req kind }

/-- The body of the response to an accepted resume request. -/
def resumeBody : Debug.ResumeKind → Body
  | .continueExecution => .continued true
  | .stepIn | .stepOver | .stepOut => .empty

def resumeError (dbg : Debug.SessionMachine) (ctxErr : GoError) : GoError :=
  match dbg.session.startCommand ctxErr .stopped with
  | .error err => err
  | .ok _ => []

def commitResume (kind : Debug.ResumeKind)
    (ctxErr : GoError) : Option Machine :=
  match m.debugger with
  | none => none
  | some dbg =>
    match dbg.step (.commitResume 0 ctxErr) with
    | none => none
    | some next =>
      let called := { m with debugger := some next }
      if resumeError dbg ctxErr ≠ [] then
        some (called.respond req (.error (resumeError dbg ctxErr)))
      else
        some ({ called with server := called.server.resumeAccepted }.respond req
          (.ok (resumeBody kind)))

def handlePause (thread : Int) (answers : Answers) :
    Option Machine :=
  if m.server.configuredDebug true = false ∨ thread ≠ threadID then
    some (m.fail req "pause requires the Ferret thread in a configured session")
  else if m.watcher.holds then
    none
  else
    match m.debugger with
    | none => none
    | some dbg =>
      let err :=
        if m.refused answers.ctxErr ≠ [] then
          m.refused answers.ctxErr
        else
          dbg.session.pause [] answers.paused
      if err ≠ [] then
        some (m.respond req (.error err))
      else
        some (m.respond req (.ok .empty))

def handleThreads : Machine :=
  if m.server.configuredDebug false then
    m.respond req (.ok (.thread threadID threadName))
  else
    m.fail req "threads requires a launched session"

/-- Ask the debugger for data of the current pause. -/
def inspect {Data : Type} (m : Machine) (ctxErr : GoError)
    (answer : Except GoError Data) : Except GoError Data :=
  if m.refused ctxErr ≠ [] then
    .error (m.refused ctxErr)
  else
    match m.debugger with
    | none => .error [.debugSessionNotFound]
    | some dbg => dbg.session.inspect [] answer

/-- The number of the event that began the current pause. -/
def pauseNumber : Option Nat :=
  m.debugger.map fun dbg => dbg.session.sequence

def handleStackTrace (thread : Int)
    (startFrame levels : Int64) (answers : Answers) : Machine :=
  if m.server.configuredDebug true = false ∨ thread ≠ threadID then
    m.fail req "stackTrace requires the Ferret thread in a configured session"
  else
    match m.inspect answers.ctxErr answers.frames with
    | .error err => m.respond req (.error err)
    | .ok frames =>
      if startFrame < 0 ∨ (frames.length : Int) < startFrame.toInt then
        m.fail req "startFrame is invalid"
      else
        match pageFrames startFrame levels frames with
        | .error _ => m.panic
        | .ok page =>
          { m with
            request := .allocating req
              (.frames startFrame.toInt.toNat page frames.length) []
              m.pauseNumber }

def handleScopes (frameID : Int) : Machine :=
  if m.server.configuredDebug true = false then
    m.fail req "scopes requires a configured session"
  else
    match m.server.handles.frameIndex frameID with
    | (_, .invalid) => m.fail req "stack frame handle is stale or invalid"
    | (_, .stale) => m.respond req (.ok (.scopes []))
    | (frame, .current) => { m with request := .inspecting req (.scopes frame) }

def handleVariables (arguments : VariablesArguments) :
    Machine :=
  if m.server.configuredDebug true = false then
    m.fail req "variables requires a configured session"
  else if arguments.filter ≠ "" ∨ arguments.start ≠ 0 ∨ arguments.count ≠ 0 then
    m.fail req "variable filtering and paging are not supported"
  else
    match m.server.handles.scopeVariables arguments.reference with
    | (_, .invalid) => { m with request := .expanding req arguments.reference }
    | (_, .stale) => m.respond req (.ok (.variableItems []))
    | (items, .current) =>
      { m with
        request := .allocating req (.expansion items) []
          (m.origins arguments.reference) }

def expandVariable (reference : Int) : Machine :=
  match m.server.handles.variableReference reference with
  | (_, .invalid) => m.fail req "variable handle is stale or invalid"
  | (_, .stale) => m.respond req (.ok (.variableItems []))
  | (value, .current) =>
    { m with request := .inspecting req (.expand value) }

def handleEvaluate (arguments : EvaluateArguments) :
    Machine :=
  if m.server.configuredDebug true = false then
    m.fail req "evaluate requires a configured session"
  else if isBlank arguments.expression then
    m.respond req (.ok (.evaluation "" "" 0))
  else if arguments.frameID = 0 then
    { m with request := .inspecting req (.evaluate 0) }
  else
    match m.server.handles.frameIndex arguments.frameID with
    | (frame, .current) =>
      { m with request := .inspecting req (.evaluate frame) }
    | (_, .stale) =>
      if arguments.context = "hover" ∨ arguments.context = "watch" then
        m.respond req (.ok (.evaluation "" "" 0))
      else
        m.fail req "stack frame handle is stale or invalid"
    | (_, .invalid) => m.fail req "stack frame handle is stale or invalid"

def readInspection (answers : Answers) :
    Inspection → Except GoError Reading
  | .scopes _ =>
    (m.inspect answers.ctxErr answers.items).map fun items =>
      .scopes (Debug.scopesOf items)
  | .expand _ => (m.inspect answers.ctxErr answers.items).map .expansion
  | .evaluate _ => (m.inspect answers.ctxErr answers.value).map .value

def handleInspection (inspection : Inspection)
    (answers : Answers) : Machine :=
  match m.readInspection answers inspection with
  | .error err => m.respond req (.error err)
  | .ok reading =>
    { m with request := .allocating req reading [] m.pauseNumber }

/-- One allocation of a handle, or the response when there is none left. -/
def allocateHandle (m : Machine) (req : Nat) (reading : Reading)
    (handles : List Int) (readAt : Option Nat) : Machine :=
  match (reading.payloads host m.server)[handles.length]? with
  | none => m.respond req (.ok (reading.body host m.server handles))
  | some (.error err) => m.respond req (.error err)
  | some (.ok payload) =>
    let allocated := m.server.handles.allocate payload
    { m with
      server := { m.server with handles := allocated.2 }
      origins := Function.update m.origins allocated.1 readAt
      request := .allocating req reading (handles ++ [allocated.1]) readAt }

def handleTerminate (restart : Bool)
    (ctxErr : GoError) : Option Machine :=
  if m.server.configuredDebug false = false ∨ restart = true then
    some (m.fail req "terminate requires a launched session and does not support restart")
  else if m.watcher.holds then
    none
  else
    match m.debugger with
    | none => none
    | some dbg =>
      let answered :=
        m.answerLaunch (.error [.message "launch terminated before configurationDone"])
      if m.refused ctxErr ≠ [] then
        some (answered.respond req (.error (m.refused ctxErr)))
      else
        some ({ answered with
          debugger := some dbg.requestTermination
          server := answered.server.invalidateHandles }.respond req (.ok .empty))

def handleDisconnect (restart suspendDebuggee : Bool) :
    Option Machine :=
  if restart = true ∨ suspendDebuggee = true then
    some (m.fail req "disconnect restart and suspend are not supported")
  else if m.watcher.holds then
    none
  else
    let answered :=
      (m.answerLaunch (.error [.message "launch disconnected before configurationDone"])).write
          [.response req (.ok .empty)]
    some { answered with
      server := { answered.server with disconnected := true }
      request := .cleaning .takePendingLaunch true .returned }

end

def handleRequest (m : Machine) (req : Nat) (answers : Answers) :
    Request → Option Machine
  | .initializeRequest options => some (m.handleInitialize req options)
  | .launch => some (m.handleLaunch req answers.launch)
  | .configurationDone => m.handleConfigurationDone req answers.ctxErr
  | .setBreakpoints arguments =>
    m.handleSetBreakpoints host req arguments answers
  | .resume kind thread => m.handleResume req kind thread answers.ctxErr
  | .pause thread => m.handlePause req thread answers
  | .threads => some (m.handleThreads req)
  | .stackTrace thread startFrame levels =>
    some (m.handleStackTrace req thread startFrame levels answers)
  | .scopes frameID => some (m.handleScopes req frameID)
  | .variablesRequest arguments => some (m.handleVariables req arguments)
  | .evaluate arguments => some (m.handleEvaluate req arguments)
  | .terminate restart => m.handleTerminate req restart answers.ctxErr
  | .disconnect restart suspendDebuggee =>
    m.handleDisconnect req restart suspendDebuggee
  | .unsupported _ => some (m.fail req "request is not supported")

/-- One step of `cleanup`, which runs with the background context. -/
def cleanupStep (locked : Bool) (result : RunEnd) :
    CleanupPC → Option Machine
  | .takePendingLaunch =>
    some { m with
      server := { m.server with pendingLaunch := none }
      request := .cleaning .invalidateHandles locked result }
  | .invalidateHandles =>
    some { m with
      server := m.server.invalidateHandles
      request := .cleaning .cancelWatch locked result }
  | .cancelWatch =>
    match m.debugger with
    | none => some { m with request := .cleaning .closeServices locked result }
    | some dbg =>
      match dbg.step (.unsubscribe 0) with
      | none => none
      | some next =>
        some { m with
          debugger := some next
          request := .cleaning .terminateSession locked result }
  | .terminateSession =>
    match m.debugger with
    | none => none
    | some dbg =>
      some { m with
        debugger := some dbg.requestTermination
        request := .cleaning .detachSession locked result }
  | .detachSession =>
    some { m with
      registered := false, request := .cleaning .beginClose locked result }
  | .beginClose =>
    match m.debugger with
    | none => none
    | some dbg =>
      match dbg.step .beginClose with
      | none => none
      | some next =>
        some { m with
          debugger := some next
          request := .cleaning .awaitClose locked result }
  | .awaitClose =>
    match m.debugger with
    | none => none
    | some dbg =>
      if dbg.session.close.state = .finished then
        some { m with request := .cleaning .closeServices locked result }
      else
        none
  | .closeServices => some { m with request := .ended result }

def handleStep (m : Machine) (answers : Answers) : Option Machine :=
  match m.request with
  | .idle | .ended _ => none
  | .handling req arguments => m.handleRequest host req answers arguments
  | .announcing => some { m.write [.initialized] with request := .arming }
  | .arming =>
    if m.watcher.holds then
      none
    else
      some { m with
        server := { m.server with initialStop := some .new }
        request := .idle
        watcher := .receiving .events }
  | .resuming req kind => m.commitResume req kind answers.ctxErr
  | .expanding req reference => some (m.expandVariable req reference)
  | .inspecting req inspection =>
    some (m.handleInspection req inspection answers)
  | .allocating req reading handles readAt =>
    some (m.allocateHandle host req reading handles readAt)
  | .cleaning pc locked result => m.cleanupStep locked result pc

/-! ## The watch goroutine -/

/-- Receive from the channel of one of the two loops; a closed and empty channel ends the
loop. -/
def receive (dbg : Debug.SessionMachine)
    (sub : Broadcast.Subscriber Debug.Event Cause) :
    WatchLoop → Option Machine
  | .events =>
    match sub.events.buffer with
    | event :: _ =>
      (dbg.step (.readEvent 0)).map fun next =>
        { m with debugger := some next, watcher := .translating event }
    | [] =>
      if sub.closed then
        some { m with watcher := .receiving .errors }
      else
        none
  | .errors =>
    match sub.errors.buffer with
    | err :: _ =>
      (dbg.step (.readError 0)).map fun next =>
        { m with debugger := some next, watcher := .reporting err }
    | [] =>
      if sub.closed then
        some { m with watcher := .finishing }
      else
        none

/-- The watch goroutine goes on to what a translation asks for. -/
def translate (event : Debug.Event) : Machine :=
  match m.server.handleDebugEvent event with
  | (server, .write messages afterwards) =>
    { m with server := server, watcher := .writing messages afterwards .events }
  | (server, .resume) => { m with server := server, watcher := .continuing }

/-- The first part of `ContinueSession` after a suppressed entry. -/
def continueEntry : Option Machine :=
  match m.debugger with
  | none => none
  | some dbg =>
    if m.refused [] ≠ [] then
      some { m with
        watcher := .writing (Server.continueFailed (m.refused [])) .keep .events }
    else
      match dbg.step (.requestResume 1 .continueExecution) with
      | none => none
      | some next =>
        some { m with debugger := some next, watcher := .committing }

def commitEntry : Option Machine :=
  match m.debugger with
  | none => none
  | some dbg =>
    match dbg.step (.commitResume 1 []) with
    | none => none
    | some next =>
      let called := { m with debugger := some next }
      if resumeError dbg [] ≠ [] then
        some { called with
          watcher := .writing (Server.continueFailed (resumeError dbg [])) .keep .events }
      else
        some { called with
          server :=
            { called.server with
              breakpoints := called.server.breakpoints.commandStarted }
          watcher := .receiving .events }

/-- Write the next message of an event, or leave the section. -/
def writeNext (afterwards : Server.Afterwards) (loop : WatchLoop) :
    List Message → Machine
  | [] =>
    { m with
      server :=
        { m.server with
          breakpoints := afterwards.apply m.server.breakpoints }
      watcher := .receiving loop }
  | msg :: rest =>
    { m.write [msg] with watcher := .writing rest afterwards loop }

def watchStep : Option Machine :=
  match m.watcher with
  | .unstarted | .ended => none
  | .receiving loop =>
    match m.debugger with
    | none => none
    | some dbg =>
      match dbg.session.watchers 0 with
      | none => none
      | some sub => m.receive dbg sub loop
  | .translating event =>
    if m.request.holds then none else some (m.translate event)
  | .continuing => m.continueEntry
  | .committing => m.commitEntry
  | .writing messages afterwards loop => some (m.writeNext afterwards loop messages)
  | .reporting err =>
    if m.request.holds then
      none
    else
      some { m with
        watcher := .writing (Server.watchFailed [err]) .keep .errors }
  | .finishing =>
    if m.request.holds then
      none
    else
      some { m with
        server :=
          { m.server with
            initialStop := none
            breakpoints := m.server.breakpoints.finish }
        watcher := .ended }

/-! ## Steps -/

/-- What a debug session does on its own: commands return, termination is carried out,
and the close operation goes on. -/
def spontaneous : Debug.SessionAction → Bool
  | .commandReturns _ _ _ | .terminate | .close _ => true
  | _ => false

def step (m : Machine) : Action → Option Machine
  | .read req =>
    match m.request with
    | .idle =>
      some { m with
        requests := m.requests ++ [req]
        request := .handling m.requests.length req }
    | _ => none
  | .stopReading =>
    match m.request with
    | .idle =>
      some { m with request := .cleaning .takePendingLaunch false .returned }
    | _ => none
  | .handle answers => m.handleStep host answers
  | .watch => m.watchStep
  | .debugger action =>
    match m.debugger with
    | none => none
    | some dbg =>
      if spontaneous action then
        (dbg.step action).map fun next => { m with debugger := some next }
      else
        none

end Machine

end Ferretd.Dap

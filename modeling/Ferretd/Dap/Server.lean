import Ferretd.Dap.SourceCoordinates
import Ferretd.Dap.InitialStop
import Ferretd.Dap.HandleTable
import Ferretd.Debug.SessionMachine

/-!
# The debug adapter

The state of the adapter and what its handlers do to it between two calls of the
debugger.  Requests carry the arguments their handlers read; messages carry what is
written to the client.  What depends on the file system, on the debugger or on the other
services comes in as an answer.
-/

namespace Ferretd.Dap

/-! ## Requests -/

/-- `initializeClientOptions`; an option that the client leaves out is `none`. -/
structure InitializeClientOptions where
  pathFormat : Option String
  linesStartAt1 : Option Bool
  columnsStartAt1 : Option Bool

def InitializeClientOptions.normalized (options : InitializeClientOptions) :
    Except GoError ClientOptions :=
  let text :=
    match options.pathFormat with
    | some given => if given = "" then "path" else given
    | none => "path"
  if text = "path" then
    .ok ⟨.path, options.linesStartAt1.getD true, options.columnsStartAt1.getD true⟩
  else if text = "uri" then
    .ok ⟨.uri, options.linesStartAt1.getD true, options.columnsStartAt1.getD true⟩
  else
    .error [.message "pathFormat must be path or uri"]

inductive RawColumn where
  | absent
  | null
  | invalid (err : GoError)
  | value (column : Int)

def RawColumn.column : RawColumn → Except GoError (Option Int)
  | .absent => .ok none
  | .null => .error [.message "breakpoint column must be an integer when supplied"]
  | .invalid err => .error (.message "invalid breakpoint column" :: err)
  | .value column => .ok (some column)

structure BreakpointArgument where
  line : Int
  column : RawColumn
  condition : String
  hitCondition : String
  logMessage : String

structure SetBreakpointsArguments where
  sourceName : String
  sourcePath : String
  sourceReference : Int
  breakpoints : List BreakpointArgument

structure VariablesArguments where
  reference : Int
  filter : String
  start : Int
  count : Int

structure EvaluateArguments where
  expression : String
  frameID : Int
  context : String

inductive Request where
  | initializeRequest (options : InitializeClientOptions)
  | launch
  | configurationDone
  | setBreakpoints (arguments : SetBreakpointsArguments)
  | resume (kind : Debug.ResumeKind) (thread : Int)
  | pause (thread : Int)
  | threads
  | stackTrace (thread : Int) (startFrame levels : Int64)
  | scopes (frameID : Int)
  | variablesRequest (arguments : VariablesArguments)
  | evaluate (arguments : EvaluateArguments)
  | terminate (restart : Bool)
  | disconnect (restart suspendDebuggee : Bool)
  | unsupported (command : String)

/-! ## Messages -/

structure SourceBreakpoint where
  id : Nat
  verified : Bool
  message : String
  sourceName : String
  sourcePath : String
  line : Int
  column : Option Int

structure StackFrame where
  id : Int
  name : String
  sourceName : String
  sourcePath : String
  line : Int
  column : Int

structure ScopeItem where
  name : String
  reference : Int
  namedVariables : Nat

structure VariableItem where
  name : String
  value : String
  type : String
  reference : Int

inductive Body where
  | empty
  | capabilities
  | continued (allThreads : Bool)
  | thread (id : Int) (name : String)
  | breakpoints (items : List SourceBreakpoint)
  | stackTrace (frames : List StackFrame) (total : Nat)
  | scopes (items : List ScopeItem)
  | variableItems (items : List VariableItem)
  | evaluation (result type : String) (reference : Int)

inductive StopReason where
  | entry
  | breakpoint
  | step
  | pause
  | exception

inductive OutputCategory where
  | stdout
  | stderr

inductive OutputText where
  | content (bytes : List UInt8)
  | failure (msg : String)
  | continueFailed (err : GoError)
  | watchFailed (err : GoError)

/-- What the adapter writes.  A response names the request it answers by the number of
requests read before it. -/
inductive Message where
  | response (req : Nat) (result : Except GoError Body)
  | initialized
  | stopped (reason : StopReason) (description : String) (hitIDs : List Nat)
  | output (category : OutputCategory) (text : OutputText)
  | exited (code : Nat)
  | terminated

/-! ## State -/

def threadID : Int := 1

def threadName : String := "Ferret"

/-- What the adapter keeps of the launched program. -/
structure OwnedSession where
  program : String
  stopOnEntry : Bool
  coordinates : SourceCoordinates

/-- Pure functions of the adapter's host: paths as the client writes them, and the last
element of a path. -/
structure Host where
  clientPath : PathFormat → String → Except GoError String
  baseName : String → String

/-- `Server`, without its streams, services and locks. -/
structure Server where
  client : ClientOptions
  owned : OwnedSession
  pendingLaunch : Option Nat
  initialized : Bool
  launched : Bool
  configured : Bool
  disconnected : Bool
  initialStop : Option InitialStop
  breakpoints : BreakpointIDs
  handles : HandleTable

namespace Server

def new : Server where
  client := ⟨.path, true, true⟩
  owned := ⟨"", false, newSourceCoordinates [] ⟨.path, true, true⟩⟩
  pendingLaunch := none
  initialized := false
  launched := false
  configured := false
  disconnected := false
  initialStop := none
  breakpoints := .new
  handles := .new

variable (server : Server)

/-- `configuredDebug` without the identifier it returns. -/
def configuredDebug (requireConfigured : Bool) : Bool :=
  server.launched && (!requireConfigured || server.configured) && !server.disconnected

def invalidateHandles : Server :=
  { server with handles := server.handles.invalidate }

/-! ## Breakpoints -/

/-- What the file system says of the source of a request, after `sourcePath` and
`newSourceIdentity`: the path is invalid, its file cannot be resolved, it is another
file, or it is the launched program. -/
inductive SourceAnswer where
  | invalid (err : GoError)
  | unavailable (path : String)
  | foreign (path : String)
  | program (path : String)

/-- The loop over the requested breakpoints before the debugger is asked. -/
def breakpointRequests (coordinates : SourceCoordinates) :
    List BreakpointArgument → Except GoError (List BreakpointRequest)
  | [] => .ok []
  | argument :: rest =>
    if argument.condition ≠ "" ∨ argument.hitCondition ≠ "" ∨
        argument.logMessage ≠ "" then
      .error [.message "conditional, hit-count, and log breakpoints are not supported"]
    else
      match argument.column.column with
      | .error err => .error err
      | .ok column =>
        match coordinates.fromClient argument.line column with
        | .error err => .error err
        | .ok pos =>
          match breakpointRequests coordinates rest with
          | .error err => .error err
          | .ok requests => .ok (⟨pos⟩ :: requests)

/-- The loop of `sendUnverifiedBreakpoints`. -/
def unverifiedBreakpoints (sourceName sourcePath msg : String) :
    List BreakpointArgument → Except GoError (List SourceBreakpoint)
  | [] => .ok []
  | argument :: rest =>
    match argument.column.column with
    | .error err => .error err
    | .ok column =>
      match unverifiedBreakpoints sourceName sourcePath msg rest with
      | .error err => .error err
      | .ok items =>
        .ok (⟨0, false, msg, sourceName, sourcePath, argument.line, column⟩ :: items)

/-- `sendUnverifiedBreakpoints`. -/
def unverified (host : Host) (server : Server) (arguments : SetBreakpointsArguments)
    (path msg : String) : Except GoError Body :=
  let sourcePath :=
    match host.clientPath server.client.pathFormat path with
    | .ok clientPath => clientPath
    | .error _ => arguments.sourcePath
  let sourceName :=
    if arguments.sourceName = "" then host.baseName path else arguments.sourceName
  (unverifiedBreakpoints sourceName sourcePath msg arguments.breakpoints).map .breakpoints

/-- What `handleSetBreakpoints` decides before it takes the event lock: the response, or
the requests for the debugger with the source as the client and the host name it. -/
inductive BreakpointPlan where
  | answer (result : Except GoError Body)
  | replace (sourceName clientPath : String) (requests : List BreakpointRequest)

def planBreakpoints (host : Host) (server : Server)
    (arguments : SetBreakpointsArguments) (source : SourceAnswer) : BreakpointPlan :=
  if server.configuredDebug false = false then
    .answer (.error [.message "setBreakpoints requires launch before configurationDone"])
  else if arguments.sourceReference ≠ 0 then
    .answer (.error [.message "source references are not supported"])
  else
    match source with
    | .invalid err => .answer (.error err)
    | .unavailable path =>
      .answer (unverified host server arguments path "breakpoint source is unavailable")
    | .foreign path =>
      .answer (unverified host server arguments path
        "breakpoints are only supported for the launched program")
    | .program path =>
      match breakpointRequests server.owned.coordinates arguments.breakpoints with
      | .error err => .answer (.error err)
      | .ok requests =>
        match host.clientPath server.client.pathFormat path with
        | .error err => .answer (.error err)
        | .ok clientPath => .replace (host.baseName path) clientPath requests

/-- The identity tables and the entry bindings after a replacement. -/
def commitBreakpoints (requests : List BreakpointRequest) (results : List Breakpoint) :
    Except Panic Server :=
  match server.breakpoints.replace server.owned.program requests results with
  | .error panic => .error panic
  | .ok replaced =>
    .ok { server with
      breakpoints := replaced
      initialStop := server.initialStop.map fun stop => stop.replace results }

/-- The client's view of one installed breakpoint. -/
def sourceBreakpoint (sourceName clientPath : String) (breakpoint : Breakpoint) :
    Except GoError SourceBreakpoint :=
  let location :=
    if breakpoint.bound then breakpoint.location else breakpoint.requestedLocation
  match server.owned.coordinates.toClient location.position with
  | .error err => .error (.message "convert native breakpoint position" :: err)
  | .ok pos =>
    if breakpoint.bound = true ∧ pos.column = none then
      .error [.message "native bound breakpoint position has no column"]
    else
      .ok ⟨server.breakpoints.id breakpoint.id, breakpoint.bound, "", sourceName,
        clientPath, pos.line, pos.column⟩

/-- The loop over the installed breakpoints after the debugger has answered. -/
def sourceBreakpoints (server : Server) (sourceName clientPath : String) :
    List Breakpoint → Except GoError (List SourceBreakpoint)
  | [] => .ok []
  | breakpoint :: rest =>
    match server.sourceBreakpoint sourceName clientPath breakpoint with
    | .error err => .error err
    | .ok item =>
      match server.sourceBreakpoints sourceName clientPath rest with
      | .error err => .error err
      | .ok items => .ok (item :: items)

/-- The section of `handleSetBreakpoints` under the event lock, with what
`ReplaceBreakpoints` returned. -/
def finishBreakpoints (sourceName clientPath : String) (requests : List BreakpointRequest)
    (outcome : Except GoError (List Breakpoint)) :
    Except Panic (Server × Except GoError Body) :=
  match outcome with
  | .error err => .ok (server, .error err)
  | .ok results =>
    match server.commitBreakpoints requests results with
    | .error panic => .error panic
    | .ok committed =>
      .ok (committed,
        (committed.sourceBreakpoints sourceName clientPath results).map .breakpoints)

/-! ## Events -/

/-- `ensureTrailingNewline`, on bytes. -/
def ensureTrailingNewline (content : List UInt8) : List UInt8 :=
  if content.getLast? = some 0x0A then content else content ++ [0x0A]

section

variable (snapshot : Debug.SessionSnapshot)

/-- `sendStopped`. -/
def stoppedMessage : Message :=
  let hitIDs := snapshot.hitBreakpointIDs.map server.breakpoints.id
  match snapshot.reason with
  | some .entry => .stopped .entry "" hitIDs
  | some .breakpoint => .stopped .breakpoint "" hitIDs
  | some .step => .stopped .step "" hitIDs
  | some .runtimeError =>
    .stopped .exception ((snapshot.failure.map RuntimeFailure.message).getD "") hitIDs
  | _ => .stopped .pause "" hitIDs

/-- The output event of a terminal snapshot, when there is output. -/
def outputMessages : List Message :=
  match snapshot.output with
  | none => []
  | some output =>
    if output.content = [] then
      []
    else
      [.output .stdout (.content (ensureTrailingNewline output.content))]

def failureMessage : String :=
  match snapshot.failure with
  | none => "debug execution failed"
  | some failure =>
    if failure.message = "" then "debug execution failed" else failure.message

end

/-- What remains to be done with the identity tables when the messages of an event have
been written. -/
inductive Afterwards where
  | keep
  | commandStopped
  | finish

def Afterwards.apply : Afterwards → BreakpointIDs → BreakpointIDs
  | .keep, ids => ids
  | .commandStopped, ids => ids.commandStopped
  | .finish, ids => ids.finish

/-- How an event is translated: messages to write, or an entry that is left at once. -/
inductive Translation where
  | write (messages : List Message) (afterwards : Afterwards)
  | resume

/-- `handleDebugEvent`, up to the call of `ContinueSession`. -/
def handleDebugEvent (event : Debug.Event) : Server × Translation :=
  let snapshot := event.snapshot
  match snapshot.state with
  | .created => (server, .write [] .keep)
  | .running => (server.invalidateHandles, .write [] .keep)
  | .stopped =>
    match server.initialStop with
    | none => (server, .write [server.stoppedMessage snapshot] .commandStopped)
    | some stop =>
      let resolved := stop.resolve snapshot server.owned.stopOnEntry server.breakpoints
      let taken := { server with initialStop := none }
      if resolved.2 then
        ({ taken with breakpoints := taken.breakpoints.commandStopped
                     }.invalidateHandles, .resume)
      else
        (taken, .write [taken.stoppedMessage resolved.1] .commandStopped)
  | .completed =>
    ({ server with initialStop := none }.invalidateHandles,
      .write (outputMessages snapshot ++ [.exited 0, .terminated]) .finish)
  | .failed =>
    ({ server with initialStop := none }.invalidateHandles,
      .write (outputMessages snapshot ++
        [.output .stderr (.failure (failureMessage snapshot)), .exited 1, .terminated]) .finish)
  | .terminated =>
    ({ server with initialStop := none }.invalidateHandles, .write [.terminated] .finish)

/-- What is written when the continuation of a suppressed entry fails. -/
def continueFailed (err : GoError) : List Message :=
  [.output .stderr (.continueFailed err), .terminated]

/-- What is written when the watch of the session fails. -/
def watchFailed (err : GoError) : List Message :=
  [.output .stderr (.watchFailed err), .terminated]

/-- The server when `StartSession` has been accepted; `none` when there is no initial
stop to freeze, which the source dereferences. -/
def startAccepted : Option Server :=
  match server.initialStop with
  | none => none
  | some stop =>
    some { server with
      initialStop := some { stop with frozen := true }
      breakpoints := server.breakpoints.commandStarted
      handles := server.handles.invalidate
      configured := true }

def resumeAccepted : Server :=
  { server with
    breakpoints := server.breakpoints.commandStarted
    handles := server.handles.invalidate }

end Server

/-! ## Inspection -/

/-- `strings.TrimSpace` removes these. -/
def isSpace (char : Char) : Bool :=
  char.toNat ∈ [0x09, 0x0A, 0x0B, 0x0C, 0x0D, 0x20, 0x85, 0xA0, 0x1680, 0x2000, 0x2001,
    0x2002, 0x2003, 0x2004, 0x2005, 0x2006, 0x2007, 0x2008, 0x2009, 0x200A, 0x2028,
    0x2029, 0x202F, 0x205F, 0x3000]

def isBlank (text : String) : Bool :=
  text.toList.all isSpace

/-- The end of the frames of a `stackTrace`: the sum is that of machine integers. -/
def stackTraceEnd (startFrame levels : Int64) (total : Nat) : Int :=
  if 0 < levels ∧ (startFrame + levels).toInt < total then
    (startFrame + levels).toInt
  else
    total

/-- The frames from the start to the end.  Both the capacity of the result and the bounds
of the slice are taken from the two numbers; an end before the start is a panic. -/
def pageFrames (startFrame levels : Int64) (frames : List Debug.Frame) :
    Except Panic (List Debug.Frame) :=
  let stop := stackTraceEnd startFrame levels frames.length
  if stop < startFrame.toInt then
    .error ⟨"slice bounds out of range"⟩
  else
    .ok ((frames.drop startFrame.toInt.toNat).take (stop - startFrame.toInt).toNat)

/-- What the debugger is asked for, with what the handle table said. -/
inductive Inspection where
  | scopes (frame : Nat)
  | expand (reference : Nat)
  | evaluate (frame : Nat)

/-- What has been read and is turned into a response. -/
inductive Reading where
  | frames (startFrame : Nat) (page : List Debug.Frame) (total : Nat)
  | scopes (scopes : List Debug.Scope)
  | expansion (items : List Debug.Variable)
  | value (value : Debug.Value)

/-- The client's view of a frame, without its handle. -/
def stackFrame (host : Host) (server : Server) (frame : Debug.Frame) :
    Except GoError StackFrame :=
  match host.clientPath server.client.pathFormat frame.location.sourceName with
  | .error err => .error err
  | .ok path =>
    match server.owned.coordinates.toClient frame.location.position with
    | .error err => .error (.message "convert native frame position" :: err)
    | .ok pos =>
      match pos.column with
      | none => .error [.message "native frame position has no column"]
      | some column =>
        .ok ⟨0, frame.name, host.baseName frame.location.sourceName, path, pos.line, column⟩

/-- The handles a response asks for, in order; a frame that does not convert ends the
request with a failure. -/
def Reading.payloads (host : Host) (server : Server) :
    Reading → List (Except GoError HandleTable.Payload)
  | .frames startFrame page _ =>
    page.mapIdx fun offset frame =>
      (stackFrame host server frame).map fun _ => .frame (startFrame + offset)
  | .scopes found => found.map fun scope => .ok (.scope scope.contents)
  | .expansion found => found.map fun item => .ok (.reference item.value.reference)
  | .value found => [.ok (.reference found.reference)]

/-- The response when every handle has been given. -/
def Reading.body (host : Host) (server : Server) (handles : List Int) :
    Reading → Body
  | .frames _ page total =>
    .stackTrace ((page.zip handles).filterMap fun (frame, handle) =>
        (stackFrame host server frame).toOption.map fun item => { item with id := handle })
      total
  | .scopes found =>
    .scopes ((found.zip handles).map fun (scope, handle) =>
      ⟨scope.name, handle, scope.contents.length⟩)
  | .expansion found =>
    .variableItems ((found.zip handles).map fun (item, handle) =>
      ⟨item.name, item.value.display, item.value.type, handle⟩)
  | .value found => .evaluation found.display found.type (handles.headD 0)

end Ferretd.Dap

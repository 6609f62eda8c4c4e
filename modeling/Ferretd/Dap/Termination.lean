import Ferretd.Dap.MachineSession

/-!
# The end of a debug session is reported once

A `terminated` event is written for the terminal event of the session, for a failed watch,
and for a suppressed entry that cannot be continued, after which the session goes on.
-/

namespace Ferretd.Dap

open Library Library.Broadcast List

/-- The events that tell the client about the program. -/
def Message.reports : Message → Bool
  | .stopped _ _ _ | .output _ _ | .exited _ | .terminated => true
  | .response _ _ | .initialized => false

/-- What the section of an event is still to write. -/
def WatcherPC.pending : WatcherPC → List Message
  | .writing messages _ _ => messages
  | _ => []

/-- The watch goroutine has nothing in hand that it may still report. -/
def WatcherPC.resting : WatcherPC → Bool
  | .translating _ | .continuing | .committing | .reporting _ => false
  | .unstarted | .receiving _ | .writing _ _ _ | .finishing | .ended => true

namespace Machine

/-- The events written, and those the section under way is to write. -/
def events (m : Machine) : List Message :=
  (m.written ++ m.watcher.pending).filter Message.reports

/-- Nothing is left in the adapter's subscription, and nothing will come. -/
def Exhausted (m : Machine) : Prop :=
  ∃ dbg sub, m.debugger = some dbg ∧
    dbg.session.watchers 0 = some sub ∧ Spent sub

variable {answers : Answers} {host : Host} {m next : Machine}

theorem Exhausted.step (exhausted : m.Exhausted) (attached : Attached m)
    (moves : DebuggerMove m next) : next.Exhausted := by
  obtain ⟨dbg, sub, known, found, spent⟩ := exhausted
  cases moves with
  | rest same => exact ⟨dbg, sub, same.trans known, found, spent⟩
  | launch fresh =>
    have none_ := (attached.unlaunched fresh).1
    rw [known] at none_
    cases none_
  | @call _ _ after knownBefore reached stepped unread =>
    cases known.symm.trans knownBefore
    obtain ⟨other, attends⟩ := attached.session dbg known
    cases found.symm.trans attends.found
    obtain ⟨later, attendsLater, untouched⟩ := attends.call stepped unread
    exact ⟨after, later, reached, attendsLater.found, untouched.spent spent⟩
  | receive knownBefore _ foundBefore buffered =>
    cases known.symm.trans knownBefore
    cases found.symm.trans foundBefore
    rw [spent.1.1] at buffered
    cases buffered
  | receiveError knownBefore _ foundBefore buffered =>
    cases known.symm.trans knownBefore
    cases found.symm.trans foundBefore
    rw [spent.2] at buffered
    cases buffered

/-! ## What the request goroutine writes -/

theorem reports_launchResponses (server : Server) (result : Except GoError Body) :
    (launchResponses server result).filter Message.reports = [] := by
  unfold launchResponses
  split <;> rfl

theorem RequestEffect.events (effect : RequestEffect host answers m next) :
    next.events = m.events ∧
      (m.watcher.resting = true → next.watcher.resting = true) := by
  have added : ∀ (written : List Message),
      written.filter Message.reports = [] →
      (m.written ++ written ++ m.watcher.pending).filter Message.reports =
        m.events := by
    intro written silent
    simp only [Machine.events, filter_append, silent, append_nil]
  cases effect with
  | answer | replace | resumeRefused | resume =>
    exact ⟨added _ rfl, id⟩
  | announce | startUnarmed => exact ⟨added _ rfl, id⟩
  | arm at_ free =>
    refine ⟨?_, fun _ => rfl⟩
    have nothing : m.watcher.pending = [] := by
      cases pc : m.watcher with
      | writing =>
        rw [pc] at free
        cases free
      | _ => rfl
    show (m.written ++ []).filter Message.reports = _
    rw [Machine.events, nothing]
  | startFails | start | terminate | disconnect =>
    refine ⟨?_, id⟩
    have silent := reports_launchResponses m.server
    simp [Machine.events, filter_append, silent, Message.reports]
  | cleanup _ effect =>
    cases effect with
    | _ =>
      exact ⟨rfl, id⟩
  | _ => exact ⟨rfl, id⟩

theorem stoppedMessage_ne_terminated (server : Server) (snapshot : Debug.SessionSnapshot) :
    server.stoppedMessage snapshot ≠ .terminated := by
  unfold Server.stoppedMessage
  dsimp only
  split
  all_goals
    intro same
    cases same

/-! ## The invariant -/

/-- A `terminated` event is the last event, and there is nothing left to report. -/
structure Concluding (m : Machine) : Prop where
  last : ∀ earlier later, m.events = earlier ++ .terminated :: later → later = []
  silent : .terminated ∈ m.events → m.watcher.resting = true ∧ m.Exhausted

theorem concluding_new : Concluding .new where
  last := by
    intro earlier later split
    simp [events, new, WatcherPC.pending] at split
  silent := by
    intro member
    simp [events, new, WatcherPC.pending] at member

/-- The condition under which a suppressed entry is continued: the session is still
registered when the watch goroutine looks it up, and still in its stop, neither
terminating nor closing, when the command is to start. -/
def continuesEntry (m : Machine) : Action → Bool
  | .watch =>
    match m.watcher, m.debugger with
    | .continuing, _ => m.registered
    | .committing, some dbg =>
      decide (dbg.session.state = .stopped) && !dbg.session.terminating &&
        !dbg.session.close.started
    | _, _ => true
  | _ => true

namespace Concluding

section

variable {action : Action} (concluding : Concluding m)
include concluding

theorem rest (attached : Attached m) (moves : DebuggerMove m next) (events : next.events = m.events)
    (resting : m.watcher.resting = true → next.watcher.resting = true) :
    Concluding next := by
  constructor
  · rw [events]
    exact concluding.last
  rw [events]
  intro member
  obtain ⟨rested, exhausted⟩ := concluding.silent member
  exact ⟨resting rested, exhausted.step attached moves⟩

section

variable {messages : List Message} (busy : m.watcher.resting = false)
include busy

theorem unconcluded : .terminated ∉ m.events := by
  intro member
  have rested := (concluding.silent member).1
  rw [busy] at rested
  cases rested

theorem report (idle : m.watcher.pending = []) (written : next.written = m.written)
    (open_ : ∀ msg ∈ next.watcher.pending, msg ≠ .terminated) :
    Concluding next := by
  have before := concluding.unconcluded busy
  have none_ : .terminated ∉ next.events := by
    intro member
    simp only [Machine.events, written, filter_append, mem_append] at member
    rcases member with old | new
    · apply before
      simpa [Machine.events, idle] using old
    · exact open_ _ (mem_filter.mp new).1 rfl
  constructor
  · intro earlier later split
    exact absurd (by simp [split]) none_
  · intro member
    exact absurd member none_

theorem conclude (idle : m.watcher.pending = []) (written : next.written = m.written)
    (unended : .terminated ∉ messages) (pending : next.watcher.pending = messages ++ [.terminated])
    (resting : next.watcher.resting = true) (exhausted : next.Exhausted) :
    Concluding next := by
  have before := concluding.unconcluded busy
  refine ⟨?_, fun _ => ⟨resting, exhausted⟩⟩
  intro earlier later split
  have shape : next.events =
      (m.events ++ messages.filter Message.reports) ++ [.terminated] := by
    simp [Machine.events, written, pending, idle, filter_append, Message.reports]
  rw [shape] at split
  rcases append_singleton_split split with ⟨rfl, _⟩ | ⟨rest, _, parts⟩
  · rfl
  exfalso
  have member : Message.terminated ∈ m.events ++ messages.filter Message.reports := by
    simp [parts]
  rcases mem_append.mp member with old | new
  · exact before old
  · exact unended (mem_filter.mp new).1

end

theorem watched (attached : Attached m)
    (allowed : m.continuesEntry .watch = true) (effect : WatchEffect m next) :
    Concluding next := by
  have moves := effect.moves
  cases effect with
  | receive at_ known found buffered =>
    refine ⟨?_, ?_⟩
    · simpa [Machine.events, at_, WatcherPC.pending] using concluding.last
    intro member
    -- the end would have left the channel empty
    have before : .terminated ∈ m.events := by
      simpa [Machine.events, at_, WatcherPC.pending] using member
    obtain ⟨_, other, subscription, knownOther, foundOther, spent⟩ :=
      concluding.silent before
    cases known.symm.trans knownOther
    cases found.symm.trans foundOther
    rw [spent.1.1] at buffered
    cases buffered
  | receiveError at_ known found buffered =>
    refine ⟨?_, ?_⟩
    · simpa [Machine.events, at_, WatcherPC.pending] using concluding.last
    intro member
    have before : .terminated ∈ m.events := by
      simpa [Machine.events, at_, WatcherPC.pending] using member
    obtain ⟨_, other, subscription, knownOther, foundOther, spent⟩ :=
      concluding.silent before
    cases known.symm.trans knownOther
    cases found.symm.trans foundOther
    rw [spent.2] at buffered
    cases buffered
  | eventsEnd at_ | errorsEnd at_ | leave at_ | finish at_ =>
    refine concluding.rest attached moves ?_ fun _ => rfl
    simp [Machine.events, at_, WatcherPC.pending]
  | translate at_ _ effect =>
    have busy : m.watcher.resting = false := by
      rw [at_]
      rfl
    have idle : m.watcher.pending = [] := by
      rw [at_]
      rfl
    cases effect with
    | laterStop | firstStop =>
      refine concluding.report busy idle rfl ?_
      intro msg member
      cases mem_singleton.mp member
      exact stoppedMessage_ne_terminated _ _
    | ended terminal unended =>
      refine concluding.conclude busy idle rfl unended rfl rfl ?_
      obtain ⟨dbg, known⟩ := attached.known_of_started (by rw [at_]; simp)
      obtain ⟨sub, attends⟩ := attached.session dbg known
      rw [at_] at attends
      exact ⟨dbg, sub, known, attends.found, attends.spent terminal⟩
    | _ =>
      exact concluding.report busy idle rfl fun _ member => nomatch member
  | continueRefused at_ _ detached =>
    simp [continuesEntry, at_, detached] at allowed
  | continueEntry at_ | commitEntry at_ =>
    refine concluding.report ?_ ?_ rfl ?_
    · rw [at_]
      rfl
    · rw [at_]
      rfl
    · nofun
  | commitRefused at_ known refused =>
    exfalso
    simp only [continuesEntry, at_, known, Bool.and_eq_true, decide_eq_true_eq,
      Bool.not_eq_true'] at allowed
    obtain ⟨⟨stopped, staying⟩, opened⟩ := allowed
    apply refused
    simp [resumeError, Debug.Session.startCommand, stopped, staying, opened]
  | write at_ =>
    refine concluding.rest attached moves ?_ fun _ => rfl
    simp [Machine.events, Machine.write, at_, WatcherPC.pending]
  | @report err at_ =>
    have pending : (WatcherPC.writing (Server.watchFailed [err]) .keep .errors).pending =
        [.output .stderr (.watchFailed [err])] ++ [.terminated] := rfl
    refine concluding.conclude ?_ ?_ rfl (by simp) pending rfl ?_
    · rw [at_]
      rfl
    · rw [at_]
      rfl
    obtain ⟨dbg, known⟩ := attached.known_of_started (by rw [at_]; simp)
    obtain ⟨sub, attends⟩ := attached.session dbg known
    have spent := attends.follows
    rw [at_] at spent
    exact ⟨dbg, sub, known, attends.found, spent⟩

theorem step (attached : Attached m) (allowed : m.continuesEntry action = true)
    (effect : Effect host m action next) : Concluding next := by
  have moves := effect.moves
  cases effect with
  | handle effect =>
    obtain ⟨events, resting⟩ := RequestEffect.events effect
    exact concluding.rest attached moves events resting
  | watch effect => exact concluding.watched attached allowed effect
  | _ =>
    exact concluding.rest attached moves rfl id

end

end Concluding

/-- `terminated` is written at most once, and no event after it. -/
def ReportedOnce (written : List Message) : Prop :=
  ∀ earlier later, written = earlier ++ .terminated :: later →
    ∀ msg ∈ later, msg.reports = false

theorem Concluding.reportedOnce (concluding : Concluding m) :
    ReportedOnce m.written := by
  intro earlier later split msg member
  by_contra reports
  have isReport : msg.reports = true := by simpa using reports
  have shape : m.events = earlier.filter Message.reports ++ .terminated ::
      (later.filter Message.reports ++ m.watcher.pending.filter Message.reports) := by
    rw [events, split, append_assoc, filter_append, cons_append,
      filter_cons_of_pos rfl, filter_append]
  have nothing := concluding.last _ _ shape
  have found : msg ∈ later.filter Message.reports :=
    mem_filter.mpr ⟨member, isReport⟩
  rw [(append_eq_nil_iff.mp nothing).1] at found
  cases found

/-- As long as every suppressed entry is continued, the end of the session is reported
once and nothing is reported after it, whatever the client asks for and however the
goroutines interleave. -/
theorem terminated_reported_once (reached : Run (Machine.step host) (fun m action =>
      m.continuesEntry action = true) .new m) :
    ReportedOnce m.written := by
  have both : Attached m ∧ Concluding m := by
    apply reached.invariant
    · exact ⟨attached_new, concluding_new⟩
    · intro state action after held allowed taken
      have effect := Effect.of_step taken
      exact ⟨held.1.step effect, held.2.step held.1 allowed effect⟩
  exact both.2.reportedOnce

/-! ## Two runs -/

def plainHost : Host where
  clientPath := fun _ path => .ok path
  baseName := fun path => path

variable (stopOnEntry : Bool)

/-- A program of two lines, left at once when it is entered. -/
def launchedQuery : LaunchedSession where
  program := "/query.fql"
  stopOnEntry := stopOnEntry
  text := [0x41, 0x0A, 0x42, 0x0A]
  id := 0
  runtime := Debug.sampleRuntime

/-- Every call succeeds, and the debugger has one frame to show. -/
def succeeding : Answers where
  ctxErr := []
  launch := .ok (launchedQuery stopOnEntry)
  source := .program "/query.fql"
  replaced := .ok []
  paused := []
  frames := .ok [⟨"main", ⟨"/query.fql", ⟨1, 1⟩⟩⟩]
  items := .ok []
  value := .ok ⟨"1", "int", 0⟩

def stopAt (reason : Debug.Reason) (line : Int) : Debug.RuntimeEvent :=
  ⟨reason, ⟨"/query.fql", ⟨line, 1⟩⟩, [], none, []⟩

/-- The requests up to the accepted start, and the stop at the entry. -/
def startSchedule : List Action :=
  [.read (.initializeRequest ⟨none, none, none⟩), .handle (succeeding stopOnEntry),
    .read .launch, .handle (succeeding stopOnEntry), .handle (succeeding stopOnEntry),
    .handle (succeeding stopOnEntry), .read .configurationDone,
    .handle (succeeding stopOnEntry), .debugger (.commandReturns 0 (some (stopAt .entry 1)) [])]

/-- The entry is continued, and the program then completes. -/
def completedSchedule : List Action :=
  startSchedule false ++ replicate 7 .watch ++
    [.debugger (.commandReturns 0 (some (stopAt .completed 2)) [])] ++
    replicate 8 .watch

theorem terminated_reported_once_completed :
    ∃ m, Run (Machine.step plainHost) (fun m action =>
        m.continuesEntry action = true) .new m ∧
      m.written = [.response 0 (.ok .capabilities), .initialized,
        .response 2 (.ok .empty), .response 1 (.ok .empty), .exited 0, .terminated] ∧
      ReportedOnce m.written := by
  have executed : (execute (guarded (Machine.step plainHost) fun m action =>
      m.continuesEntry action = true) .new completedSchedule).map Machine.written =
        some [.response 0 (.ok .capabilities), .initialized, .response 2 (.ok .empty),
          .response 1 (.ok .empty), .exited 0, .terminated] := by
    rfl
  obtain ⟨m, reached, written⟩ := Option.map_eq_some_iff.mp executed
  have run := run_of_guarded (reaches_of_execute reached)
  exact ⟨m, run, written, terminated_reported_once run⟩

/-- The client asks for termination while the stop at the entry is still queued: the
continuation of the suppressed entry is refused and reported as the end, and the end of
the session is reported again. -/
def terminatedTwiceSchedule : List Action :=
  startSchedule false ++ [.read (.terminate false), .handle (succeeding false)] ++
    replicate 10 .watch ++ [.debugger .terminate] ++ replicate 3 .watch

theorem terminated_reported_twice :
    ∃ m, Reaches (Machine.step plainHost) .new m ∧
      ¬ ReportedOnce m.written := by
  have executed : (execute (Machine.step plainHost) .new terminatedTwiceSchedule).map
      Machine.written =
        some ([.response 0 (.ok .capabilities), .initialized, .response 2 (.ok .empty),
          .response 1 (.ok .empty), .response 3 (.ok .empty),
          .output .stderr (.continueFailed [.debugSessionTerminal])] ++ .terminated ::
            [.terminated]) := by
    rfl
  obtain ⟨m, reached, written⟩ := Option.map_eq_some_iff.mp executed
  refine ⟨m, reaches_of_execute reached, ?_⟩
  intro once
  have silent := once _ _ written .terminated (mem_singleton.mpr rfl)
  cases silent

end Machine

end Ferretd.Dap

import Ferretd.Dap.Termination

/-!
# Replacing breakpoints

`setBreakpoints` commits the new set before it converts the installed locations, so a
location that does not convert makes the response a failure although the set is replaced.
-/

namespace Ferretd.Dap

open Library

namespace BreakpointIDs

theorem assignAll_ok_iff {source : String} {requests : List BreakpointRequest}
    {results : List Breakpoint} {ids : BreakpointIDs} :
    (∃ after, assignAll source requests results ids = .ok after) ↔
      results.length ≤ requests.length := by
  induction results generalizing requests ids with
  | nil => simp [assignAll]
  | cons _ _ ih =>
    cases requests with
    | nil => simp [assignAll]
    | cons =>
      simp only [assignAll, List.length_cons, Nat.add_le_add_iff_right]
      exact ih

end BreakpointIDs

namespace Server

/-- The location of an installed breakpoint has client coordinates, with a column when
the breakpoint is bound. -/
def converts (server : Server) (breakpoint : Breakpoint) : Bool :=
  let location :=
    if breakpoint.bound then breakpoint.location else breakpoint.requestedLocation
  match server.owned.coordinates.toClient location.position with
  | .error _ => false
  | .ok pos => !(breakpoint.bound && pos.column.isNone)

variable {server committed : Server} {results : List Breakpoint}
variable {requests : List BreakpointRequest}

variable (sourceName clientPath : String)

theorem sourceBreakpoint_ok_iff {breakpoint : Breakpoint} :
    (∃ item, server.sourceBreakpoint sourceName clientPath breakpoint = .ok item) ↔
      server.converts breakpoint = true := by
  unfold sourceBreakpoint converts
  dsimp only
  cases server.owned.coordinates.toClient
      (if breakpoint.bound = true then breakpoint.location
        else breakpoint.requestedLocation).position with
  | error err => simp
  | ok pos =>
    cases bound : breakpoint.bound with
    | false => simp
    | true =>
      cases column : pos.column with
      | none | some => simp [column]

theorem sourceBreakpoints_ok_iff :
    (∃ items, server.sourceBreakpoints sourceName clientPath results = .ok items) ↔
      ∀ breakpoint ∈ results, server.converts breakpoint = true := by
  induction results with
  | nil => simp [sourceBreakpoints]
  | cons breakpoint results ih =>
    rw [List.forall_mem_cons, ← ih, ← sourceBreakpoint_ok_iff sourceName clientPath]
    simp only [sourceBreakpoints]
    cases server.sourceBreakpoint sourceName clientPath breakpoint with
    | error => simp
    | ok =>
      cases server.sourceBreakpoints sourceName clientPath results with
      | error | ok => simp

theorem commitBreakpoints_ok_iff :
    (∃ committed, server.commitBreakpoints requests results = .ok committed) ↔
      results.length ≤ requests.length := by
  rw [← @BreakpointIDs.assignAll_ok_iff server.owned.program requests results
    server.breakpoints.retire]
  unfold commitBreakpoints BreakpointIDs.replace
  cases BreakpointIDs.assignAll server.owned.program requests results
      server.breakpoints.retire with
  | error | ok => simp

theorem owned_of_commit (commits : server.commitBreakpoints requests results = .ok committed) :
    committed.owned = server.owned := by
  obtain ⟨_, rfl⟩ := commitBreakpoints_ok commits
  rfl

end Server

namespace Machine

variable {host : Host} {m next : Machine} {req : Nat}
variable {arguments : SetBreakpointsArguments} {answers : Answers}

/-- The adapter with other breakpoints: another set in the debugger, other identities and
another record of the initial stop. -/
def withBreakpoints (m : Machine) (installed : String → List Breakpoint)
    (ids : BreakpointIDs) (stop : Option InitialStop) : Machine :=
  { m with
    installed := installed
    server := { m.server with breakpoints := ids, initialStop := stop } }

/-- Whatever the breakpoints were, a failure response leaves them. -/
def FailureKeeps (host : Host) (m : Machine) (req : Nat)
    (arguments : SetBreakpointsArguments) (answers : Answers) : Prop :=
  ∀ installed ids stop next,
    (m.withBreakpoints installed ids stop).handleSetBreakpoints host req arguments
      answers = some next →
    (∃ err, next.written = m.written ++ [.response req (.error err)]) →
      next.installed = installed ∧ next.server.breakpoints = ids ∧
        next.server.initialStop = stop

/-- When the handler gets to ask the debugger, which installs breakpoints for requests,
every installed location converts to client coordinates. -/
def ReplacementConverts (host : Host) (m : Machine)
    (arguments : SetBreakpointsArguments) (answers : Answers) : Prop :=
  ∀ dbg sourceName clientPath requests results,
    m.debugger = some dbg → m.watcher.holds = false →
    m.server.planBreakpoints host arguments answers.source =
      .replace sourceName clientPath requests →
    m.refused answers.ctxErr = [] → dbg.session.requireActive = [] →
    answers.replaced = .ok results → results.length ≤ requests.length →
      ∀ breakpoint ∈ results, m.server.converts breakpoint = true

theorem response_error_of_written {written : List Message} {result : Except GoError Body}
    {err : GoError} (same : written ++ [.response req result] =
      written ++ [.response req (.error err)]) : result = .error err := by
  have last := List.append_cancel_left same
  simpa using last

theorem handleSetBreakpoints_of_replaced {dbg : Debug.SessionMachine}
    {sourceName clientPath : String} {requests : List BreakpointRequest}
    {results : List Breakpoint} {committed : Server}
    (known : m.debugger = some dbg) (free : m.watcher.holds = false)
    (planned : m.server.planBreakpoints host arguments answers.source =
      .replace sourceName clientPath requests) (found : m.refused answers.ctxErr = [])
    (active : dbg.session.requireActive = []) (replaced : answers.replaced = .ok results)
    (commits : m.server.commitBreakpoints requests results = .ok committed) :
    m.handleSetBreakpoints host req arguments answers = some ({ m with
        installed := Function.update m.installed m.server.owned.program results
        server := committed }.respond req
          ((committed.sourceBreakpoints sourceName clientPath results).map .breakpoints)) := by
  have outcome : (if m.refused answers.ctxErr ≠ [] then
        Except.error (m.refused answers.ctxErr)
      else dbg.session.replaceBreakpoints [] answers.replaced) = .ok results := by
    rw [if_neg (by simp [found]), Debug.Session.replaceBreakpoints, if_neg (by simp),
      if_neg (by simp [active]), replaced]
  simp only [handleSetBreakpoints, planned, free, Bool.false_eq_true, if_false, known,
    outcome, Server.finishBreakpoints, commits]

theorem asked_of_outcome {dbg : Debug.SessionMachine} {results : List Breakpoint}
    (outcome : (if m.refused answers.ctxErr ≠ [] then
        Except.error (m.refused answers.ctxErr)
      else dbg.session.replaceBreakpoints [] answers.replaced) = .ok results) :
    m.refused answers.ctxErr = [] ∧ dbg.session.requireActive = [] ∧
      answers.replaced = .ok results := by
  split at outcome
  · cases outcome
  rename_i found
  unfold Debug.Session.replaceBreakpoints at outcome
  rw [if_neg (by simp)] at outcome
  split at outcome
  · cases outcome
  next active => exact ⟨by simpa using found, by simpa using active, outcome⟩

theorem failureKeeps_of_converts (converts : ReplacementConverts host m arguments answers) :
    FailureKeeps host m req arguments answers := by
  intro installed ids stop next taken failed
  obtain ⟨err, failed⟩ := failed
  unfold handleSetBreakpoints at taken
  split at taken
  · cases taken
    exact ⟨rfl, rfl, rfl⟩
  rename_i sourceName clientPath requests planned
  split at taken
  · cases taken
  rename_i free
  split at taken
  · cases taken
  rename_i dbg known
  dsimp only at taken
  have asked := @asked_of_outcome (m.withBreakpoints installed ids stop) answers dbg
  generalize (if (m.withBreakpoints installed ids stop).refused
      answers.ctxErr ≠ [] then
      Except.error ((m.withBreakpoints installed ids stop).refused answers.ctxErr)
    else dbg.session.replaceBreakpoints [] answers.replaced) = outcome
    at taken asked
  cases outcome with
  | error =>
    cases taken
    exact ⟨rfl, rfl, rfl⟩
  | ok results =>
    exfalso
    obtain ⟨found, active, replaced⟩ := asked rfl
    simp only [Server.finishBreakpoints] at taken
    cases commits : (m.withBreakpoints installed ids
        stop).server.commitBreakpoints requests results with
    | error =>
      rw [commits] at taken
      cases taken
      have short : m.written.length =
          (m.written ++ [Message.response req (.error err)]).length :=
        congrArg List.length failed
      simp at short
    | ok committed =>
      rw [commits] at taken
      cases taken
      have covered := Server.commitBreakpoints_ok_iff.mp ⟨_, commits⟩
      have all := converts dbg sourceName clientPath requests results
        known (Bool.eq_false_iff.mpr free) planned found active replaced covered
      have owned := Server.owned_of_commit commits
      have same : ∀ breakpoint, committed.converts breakpoint =
          m.server.converts breakpoint := by
        intro breakpoint
        unfold Server.converts
        rw [owned]
        rfl
      obtain ⟨items, shown⟩ :=
        (@Server.sourceBreakpoints_ok_iff committed results sourceName
          clientPath).mpr fun breakpoint member =>
            (same breakpoint).trans (all breakpoint member)
      have result := response_error_of_written failed
      rw [shown] at result
      cases result

theorem converts_of_failureKeeps (keeps : FailureKeeps host m req arguments answers) :
    ReplacementConverts host m arguments answers := by
  intro dbg sourceName clientPath requests results known free planned found active
    replaced covered
  by_contra bad
  -- an empty set in the debugger, which the replacement fills
  obtain ⟨committed, commits⟩ := (@Server.commitBreakpoints_ok_iff
    (m.withBreakpoints (fun _ => []) .new none).server results requests).mpr covered
  have owned := Server.owned_of_commit commits
  have same : ∀ breakpoint, committed.converts breakpoint =
      m.server.converts breakpoint := by
    intro breakpoint
    unfold Server.converts
    rw [owned]
    rfl
  have fails : ∃ err, committed.sourceBreakpoints sourceName clientPath results = .error err := by
    cases shown : committed.sourceBreakpoints sourceName clientPath results with
    | error err => exact ⟨err, rfl⟩
    | ok items =>
      exfalso
      apply bad
      intro breakpoint member
      rw [← same]
      exact (Server.sourceBreakpoints_ok_iff sourceName clientPath).mp ⟨items, shown⟩
        breakpoint member
  obtain ⟨err, fails⟩ := fails
  have stepped := @handleSetBreakpoints_of_replaced host
    (m.withBreakpoints (fun _ => []) .new none) req arguments answers dbg
    sourceName clientPath requests results committed known free planned found active
    replaced commits
  rw [fails] at stepped
  obtain ⟨kept, _, _⟩ := keeps _ _ _ _ stepped ⟨err, rfl⟩
  have emptied : Function.update (fun _ : String => ([] : List Breakpoint))
      m.server.owned.program results m.server.owned.program = [] :=
    congrFun kept m.server.owned.program
  rw [Function.update_self] at emptied
  subst emptied
  apply bad
  intro breakpoint member
  cases member

/-- A failed `setBreakpoints` leaves the set of the debugger, the identities and the
initial stop as they were exactly when every location the debugger installs converts to
client coordinates. -/
theorem failed_setBreakpoints_keeps_iff (host : Host) (m : Machine) (req : Nat)
    (arguments : SetBreakpointsArguments) (answers : Answers) :
    FailureKeeps host m req arguments answers ↔
      ReplacementConverts host m arguments answers :=
  ⟨converts_of_failureKeeps, failureKeeps_of_converts⟩

/-- The debugger binds a breakpoint on the first line to a line the source does not
have. -/
def boundOutside : Answers :=
  { succeeding false with
    replaced := .ok [⟨7, true, ⟨"/query.fql", ⟨1, 0⟩⟩, ⟨"/query.fql", ⟨99, 1⟩⟩⟩] }

def outsideError : GoError :=
  .message "convert native breakpoint position" ::
    invalidPosition "native line is outside the compiled source"

def firstLine : SetBreakpointsArguments :=
  ⟨"", "/query.fql", 0, [⟨1, .absent, "", "", ""⟩]⟩

/-- The session is launched and asked for a breakpoint on the first line. -/
def askedSchedule : List Action :=
  [.read (.initializeRequest ⟨none, none, none⟩), .handle (succeeding false),
    .read .launch, .handle (succeeding false), .handle (succeeding false),
    .handle (succeeding false), .read (.setBreakpoints firstLine)]

theorem failed_setBreakpoints_replaces :
    ∃ before after err, Reaches (Machine.step plainHost) .new before ∧
      before.handleSetBreakpoints plainHost 2 firstLine boundOutside = some after ∧
      after.written = before.written ++ [.response 2 (.error err)] ∧
      after.installed ≠ before.installed ∧
      after.server.breakpoints.active 7 ≠ before.server.breakpoints.active 7 ∧
      after.server.initialStop ≠ before.server.initialStop := by
  have executed : ((execute (Machine.step plainHost) .new askedSchedule).bind fun before =>
      (before.handleSetBreakpoints plainHost 2 firstLine boundOutside).map fun after =>
        (before.written, after.written, before.installed "/query.fql",
          after.installed "/query.fql", before.server.breakpoints.active 7,
          after.server.breakpoints.active 7, before.server.initialStop,
          after.server.initialStop)) =
      some ([.response 0 (.ok .capabilities), .initialized],
        [.response 0 (.ok .capabilities), .initialized, .response 2 (.error outsideError)],
        [], [⟨7, true, ⟨"/query.fql", ⟨1, 0⟩⟩, ⟨"/query.fql", ⟨99, 1⟩⟩⟩], 0, 1,
        some ⟨[], false⟩, some ⟨[⟨7, ⟨"/query.fql", ⟨99, 1⟩⟩⟩], false⟩) := by
    rfl
  obtain ⟨before, reached, tested⟩ := Option.bind_eq_some_iff.mp executed
  obtain ⟨after, stepped, all⟩ := Option.map_eq_some_iff.mp tested
  simp only [Prod.mk.injEq] at all
  obtain ⟨written, writtenAfter, installed, installedAfter, active, activeAfter, stop,
    stopAfter⟩ := all
  refine ⟨before, after, outsideError, reaches_of_execute reached, stepped, ?_, ?_, ?_, ?_⟩
  · rw [written, writtenAfter]
    rfl
  · intro same
    rw [same, installed] at installedAfter
    cases installedAfter
  · rw [active, activeAfter]
    decide
  · rw [stop, stopAfter]
    decide

end Machine

end Ferretd.Dap

import Ferretd.Dap.Termination

/-!
# Handles and pauses

A handle is given for data that was read in one pause of the program, and must not be taken
for current in another.  The watch goroutine resumes too, when it leaves a suppressed
entry, and does not know of an inspection that is still to allocate.
-/

namespace Ferretd.Dap

open Library Library.Broadcast

/-- Data read in the pause with this number may still be shown: the session is in that
pause, or will not pause again. -/
def Fresh (session : Debug.Session) (number : Nat) : Prop :=
  session.state.terminal = true ∨ session.state = .stopped ∧ number = session.sequence

/-- The steps of a session that may accept a command. -/
def commands : Debug.SessionAction → Bool
  | .start _ | .commitResume _ _ => true
  | _ => false

/-- The request goroutine neither prepares a launch nor gives handles. -/
def RequestPC.plain : RequestPC → Bool
  | .announcing | .arming | .allocating _ _ _ _ => false
  | _ => true

/-- The watch goroutine is leaving a suppressed entry. -/
def WatcherPC.leaving : WatcherPC → Bool
  | .continuing | .committing => true
  | _ => false

variable {ctxErr : GoError}

section Fresh

variable {dbg next : Debug.SessionMachine} {action : Debug.SessionAction}
variable {number : Nat}

theorem Fresh.not_running (fresh : Fresh dbg.session number) :
    dbg.session.state ≠ .running := by
  intro running
  rcases fresh with ended | ⟨stopped, _⟩
  · rw [running] at ended
    cases ended
  · rw [running] at stopped
    cases stopped

theorem Fresh.step (fresh : Fresh dbg.session number)
    (stepped : dbg.step action = some next) (calm : commands action = false) :
    Fresh next.session number := by
  have effect := Debug.Effect.of_step stepped
  have still : next.session.state ≠ .running := by
    intro running
    rcases effect.command_of_running fresh.not_running running with
      ⟨ctxErr, rfl⟩ | ⟨req, ctxErr, rfl⟩
    · cases calm
    · cases calm
  rcases effect.session with rests | publishes
  · unfold Fresh
    rw [rests.state, rests.sequence]
    exact fresh
  left
  have moves := publishes.moves
  have changed := publishes.changed
  rcases fresh with ended | ⟨stopped, _⟩
  · rw [publishes.opened] at ended
    cases ended
  rw [stopped] at moves changed
  generalize next.session.state = state at moves changed still ⊢
  cases moves with
  | stay => exact absurd rfl changed
  | resume => exact absurd rfl still
  | terminate => rfl

theorem session_of_refused {req : Nat} (refused : Machine.resumeError dbg ctxErr ≠ [])
    (stepped : dbg.step (.commitResume req ctxErr) = some next) :
    next.session = dbg.session := by
  unfold Machine.resumeError at refused
  simp only [Debug.SessionMachine.step, Debug.SessionMachine.startCommand] at stepped
  split at stepped
  · cases stepped
  cases outcome : dbg.session.startCommand ctxErr .stopped with
  | error =>
    rw [outcome] at stepped
    cases stepped
    rfl
  | ok =>
    rw [outcome] at refused
    exact absurd rfl refused

end Fresh

namespace Machine

section

variable (m : Machine)

/-- The adapter is at the stop of the entry, or about to be, and may leave it by itself:
the stop has not been handled and is not to be shown as such, or it is being left. -/
def entering : Bool :=
  match m.watcher with
  | .continuing | .committing => true
  | _ => m.server.initialStop.isSome && !m.server.owned.stopOnEntry

/-- The condition under which an inspection reads: the adapter is not about to leave the
pause by itself. -/
def inspectsSettled : Action → Bool
  | .handle _ =>
    match m.request, m.debugger with
    | .handling _ (.stackTrace _ _ _), some dbg
    | .inspecting _ _, some dbg =>
      !(m.entering && decide (dbg.session.state = .stopped))
    | _, _ => true
  | _ => true

def Shows (number : Option Nat) : Prop :=
  ∃ dbg read, m.debugger = some dbg ∧ number = some read ∧
    Fresh dbg.session read

/-- No handle is live, and none is about to be given. -/
def Bare : Prop :=
  (∀ handle, ¬ m.server.handles.Live handle) ∧
    ∀ req reading handles readAt, m.request ≠ .allocating req reading handles readAt

end

/-- Every live handle, and every handle about to be given, is of the current pause. -/
structure Current (m : Machine) : Prop where
  live : ∀ handle, m.server.handles.Live handle → m.Shows (m.origins handle)
  reading : ∀ req reading handles readAt,
    m.request = .allocating req reading handles readAt → m.Shows readAt
  entry : m.entering = true → m.Bare
  prepared : m.request.preparing = true → m.Bare

theorem current_new : Current .new where
  live := by
    intro handle isLive
    rcases isLive with found | found | found
    all_goals exact absurd found (AList.notMem_empty handle)
  reading := nofun
  entry := nofun
  prepared := nofun

variable {snapshot : Debug.SessionSnapshot} {stopOnEntry : Bool} {ids : BreakpointIDs}
  {table : HandleTable} {handle : Int} {host : Host} {m next : Machine} {action : Action}

def Keeps (m next : Machine) : Prop :=
  ∀ number, m.Shows number → next.Shows number

theorem Keeps.rest (same : next.debugger = m.debugger) : m.Keeps next := by
  rintro number ⟨dbg, read, known, readEq, fresh⟩
  exact ⟨dbg, read, same.trans known, readEq, fresh⟩

variable {after dbg : Debug.SessionMachine}

theorem Keeps.call {call : Debug.SessionAction} (known : m.debugger = some dbg)
    (reached : next.debugger = some after) (stepped : dbg.step call = some after)
    (calm : commands call = false) : m.Keeps next := by
  rintro number ⟨other, read, knownOther, readEq, fresh⟩
  cases known.symm.trans knownOther
  exact ⟨after, read, reached, readEq, fresh.step stepped calm⟩

theorem Keeps.refused {req : Nat} (known : m.debugger = some dbg)
    (reached : next.debugger = some after) (refused : resumeError dbg ctxErr ≠ [])
    (stepped : dbg.step (.commitResume req ctxErr) = some after) :
    m.Keeps next := by
  rintro number ⟨other, read, knownOther, readEq, fresh⟩
  cases known.symm.trans knownOther
  refine ⟨after, read, reached, readEq, ?_⟩
  rw [session_of_refused refused stepped]
  exact fresh

theorem entering_of_same (watcher : next.watcher = m.watcher)
    (stop : next.server.initialStop.isSome = true → m.server.initialStop.isSome = true)
    (owned : next.server.owned = m.server.owned) (entered : next.entering = true) :
    m.entering = true := by
  unfold entering at entered ⊢
  rw [watcher, owned] at entered
  cases pc : m.watcher with
  | continuing | committing => rfl
  | _ =>
    rw [pc] at entered
    have both := Bool.and_eq_true_iff.mp entered
    exact Bool.and_eq_true_iff.mpr ⟨stop both.1, both.2⟩

theorem entering_of_turn (stays : next.watcher.leaving = false)
    (stop : next.server.initialStop.isSome = true → m.server.initialStop.isSome = true)
    (owned : next.server.owned = m.server.owned) (entered : next.entering = true) :
    m.entering = true := by
  have both : (next.server.initialStop.isSome && !next.server.owned.stopOnEntry) = true := by
    unfold entering at entered
    cases pc : next.watcher with
    | continuing | committing =>
      rw [pc] at stays
      cases stays
    | _ =>
      rw [pc] at entered
      exact entered
  rw [Bool.and_eq_true, owned] at both
  unfold entering
  split
  · rfl
  · rfl
  · exact Bool.and_eq_true_iff.mpr ⟨stop both.1, both.2⟩

theorem stopOnEntry_of_resolve {stop : InitialStop}
    (left_ : (stop.resolve snapshot stopOnEntry ids).2 = true) : stopOnEntry = false := by
  unfold InitialStop.resolve at left_
  split at left_
  · cases left_
  dsimp only at left_
  generalize (if snapshot.hitBreakpointIDs = [] then
      (InitialStop.hitsAt ids snapshot.location [] stop.bindings).insertionSort (· ≤ ·)
    else snapshot.hitBreakpointIDs) = hits at left_
  split at left_
  · cases left_
  · simpa using left_

namespace Current

theorem bare_of_created (current : Current m) (known : m.debugger = some dbg)
    (created : dbg.session.state = .created) : m.Bare := by
  have unshown : ∀ number, ¬ m.Shows number := by
    rintro number ⟨other, read, knownOther, _, fresh⟩
    cases known.symm.trans knownOther
    rcases fresh with ended | ⟨stopped, _⟩
    · rw [created] at ended
      cases ended
    · rw [created] at stopped
      cases stopped
  constructor
  · intro handle isLive
    exact unshown _ (current.live handle isLive)
  · intro req reading handles readAt at_
    exact unshown _ (current.reading req reading handles readAt at_)

theorem bare_of_unlaunched (current : Current m) (none_ : m.debugger = none) :
    m.Bare := by
  have unshown : ∀ number, ¬ m.Shows number := by
    rintro number ⟨other, read, known, _, _⟩
    rw [none_] at known
    cases known
  constructor
  · intro handle isLive
    exact unshown _ (current.live handle isLive)
  · intro req reading handles readAt at_
    exact unshown _ (current.reading req reading handles readAt at_)

theorem of_bare (bare : m.Bare) : Current m where
  live := fun handle isLive => absurd isLive (bare.1 handle)
  reading := fun req reading handles readAt at_ =>
    absurd at_ (bare.2 req reading handles readAt)
  entry := fun _ => bare
  prepared := fun _ => bare

section

variable (current : Current m)
  (keeps : m.Keeps next)
  (origins : next.origins = m.origins)
include current keeps origins

theorem rest (live : ∀ handle, next.server.handles.Live handle → m.server.handles.Live handle)
    (req : next.request.plain = true ∨ next.request = m.request)
    (entering : next.entering = true → m.entering = true) : Current next := by
  have bare : m.Bare → next.Bare := by
    rintro ⟨dead, idle⟩
    refine ⟨fun handle isLive => dead handle (live handle isLive), ?_⟩
    intro number reading handles readAt at_
    rcases req with plain | same
    · rw [at_] at plain
      cases plain
    · exact idle number reading handles readAt (same.symm.trans at_)
  refine ⟨?_, ?_, fun entered => bare (current.entry (entering entered)), ?_⟩
  · intro handle isLive
    rw [origins]
    exact keeps _ (current.live handle (live handle isLive))
  · intro number reading handles readAt at_
    rcases req with plain | same
    · rw [at_] at plain
      cases plain
    · exact keeps _ (current.reading number reading handles readAt (same.symm.trans at_))
  · intro preparing
    rcases req with plain | same
    · exfalso
      unfold RequestPC.plain at plain
      unfold RequestPC.preparing at preparing
      split at preparing
      next at_ => rw [at_] at plain; cases plain
      next at_ => rw [at_] at plain; cases plain
      · cases preparing
    · exact bare (current.prepared (same ▸ preparing))

theorem respond (handles : next.server.handles = m.server.handles)
    (req : next.request.plain = true) (watcher : next.watcher = m.watcher)
    (stop : next.server.initialStop.isSome = true → m.server.initialStop.isSome = true)
    (owned : next.server.owned = m.server.owned) : Current next := by
  refine current.rest keeps origins ?_ (.inl req) ?_
  · intro handle isLive
    rw [handles] at isLive
    exact isLive
  · exact entering_of_same watcher stop owned

end

theorem of_invalidate (handles : next.server.handles = m.server.handles.invalidate)
    (req : next.request.plain = true) : Current next := by
  apply of_bare
  constructor
  · intro handle isLive
    rw [handles] at isLive
    exact m.server.handles.not_live_invalidate handle isLive
  · intro number reading handles readAt at_
    rw [at_] at req
    cases req

section

variable {locked : Bool} {result : RunEnd} {pc : CleanupPC} {answers : Answers}
  (current : Current m)
include current

theorem cleanup (effect : CleanupEffect m locked result pc next) :
    Current next := by
  cases effect with
  | invalidateHandles => exact of_invalidate rfl rfl
  | @call _ action _ _ _ known called stepped =>
    have calm : commands action = false := by
      rcases called with called | called | called
      all_goals
        cases called
        rfl
    exact current.respond (.call known rfl stepped calm) rfl rfl rfl rfl id rfl
  | _ =>
    exact current.respond (.rest rfl) rfl rfl rfl rfl id rfl

theorem request (attached : Attached m) (allowed : m.inspectsSettled (.handle answers) = true)
    (effect : RequestEffect host answers m next) : Current next := by
  cases effect with
  | answer _ _ same =>
    refine current.respond (.rest rfl) rfl same.handles rfl rfl ?_ same.owned
    intro some_
    exact same.initialStop ▸ some_
  | replace _ _ _ _ committed =>
    obtain ⟨_, rfl⟩ := Server.commitBreakpoints_ok committed
    refine current.respond (.rest rfl) rfl rfl rfl rfl ?_ rfl
    intro some_
    exact Option.isSome_map.symm.trans some_
  | launch at_ fresh =>
    have bare := current.bare_of_unlaunched (attached.unlaunched fresh).1
    apply of_bare
    refine ⟨bare.1, ?_⟩
    intro number reading handles readAt at_
    cases at_
  | announce at_ | arm at_ =>
    have bare := current.prepared (by rw [at_]; rfl)
    apply of_bare
    refine ⟨bare.1, ?_⟩
    intro number reading handles readAt at_
    cases at_
  | startFails =>
    refine current.respond (.rest rfl) rfl rfl rfl rfl ?_ rfl
    intro some_
    cases some_
  | start _ _ _ _ _ _ _ armed =>
    unfold Server.startAccepted at armed
    split at armed
    · cases armed
    · cases armed
      exact of_invalidate rfl rfl
  | startUnarmed _ _ known _ _ accepted =>
    obtain ⟨snapshot, accepted⟩ := accepted
    have created := (Debug.Session.startCommand_ok accepted).2.2.1
    have bare := current.bare_of_created known created
    apply of_bare
    refine ⟨bare.1, ?_⟩
    intro number reading handles readAt at_
    cases at_
  | requestResume _ _ _ known stepped =>
    exact current.respond (.call known rfl stepped rfl) rfl rfl rfl rfl id rfl
  | resumeRefused _ known refused isError stepped =>
    subst refused
    exact current.respond (.refused known rfl isError stepped) rfl rfl rfl rfl id rfl
  | resume => exact of_invalidate rfl rfl
  | @terminate _ _ req dbg after server _ _ known stepped server_ =>
    have keeps : ∀ server written req, m.Keeps
        { m with server := server, debugger := some after, written := written,
                       request := req } := by
      intro server written req
      rcases stepped with rfl | rfl
      · exact .rest known.symm
      · have stepped : dbg.step (.terminateExecution []) =
            some dbg.requestTermination := rfl
        exact .call known rfl stepped rfl
    rcases server_ with rfl | rfl
    · exact current.respond (keeps _ _ _) rfl rfl rfl rfl id rfl
    · exact of_invalidate rfl rfl
  | lookUp _ _ goes =>
    rcases goes with ⟨reference, rfl⟩ | ⟨inspection, rfl⟩ <;>
      exact current.respond (.rest rfl) rfl rfl rfl rfl id rfl
  | @inspect _ _ dbg _ _ asks known stopped =>
    -- the adapter will not leave this pause by itself
    have settled : m.entering = false := by
      by_contra entering
      have entered : m.entering = true := by simpa using entering
      unfold inspectsSettled at allowed
      rcases asks with ⟨thread, startFrame, levels, at_⟩ | ⟨inspection, at_⟩ <;>
        simp [at_, known, entered, stopped] at allowed
    refine ⟨?_, ?_, ?_, ?_⟩
    · intro handle isLive
      exact Keeps.rest rfl _ (current.live handle isLive)
    · intro number other handles readAt at_
      cases at_
      exact ⟨dbg, _, known, rfl, .inr ⟨stopped, rfl⟩⟩
    · intro entering
      have before : m.entering = true :=
        entering_of_same rfl id rfl entering
      rw [settled] at before
      cases before
    · nofun
  | readScope _ isLive =>
    refine ⟨?_, ?_, ?_, ?_⟩
    · intro handle stays
      exact Keeps.rest rfl _ (current.live handle stays)
    · intro number other handles readAt at_
      cases at_
      exact Keeps.rest rfl _ (current.live _ isLive)
    · intro entering
      have before : m.entering = true :=
        entering_of_same rfl id rfl entering
      exact absurd isLive ((current.entry before).1 _)
    · nofun
  | @allocate reading handles readAt payload req at_ =>
    have shown := current.reading req reading handles readAt at_
    refine ⟨?_, ?_, ?_, ?_⟩
    · intro handle isLive
      by_cases given : handle = (m.server.handles.allocate payload).1
      · subst given
        show m.Shows (Function.update m.origins _ readAt _)
        rw [Function.update_self]
        exact shown
      show m.Shows (Function.update m.origins _ readAt handle)
      rw [Function.update_of_ne given]
      rcases HandleTable.live_allocate isLive with before | same
      · exact current.live handle before
      · exact absurd same given
    · intro number other more later same
      cases same
      exact shown
    · intro entering
      have before : m.entering = true :=
        entering_of_same rfl id rfl entering
      exact absurd at_ ((current.entry before).2 _ _ _ _)
    · nofun
  | cleanup _ effect => exact current.cleanup effect
  | _ =>
    exact current.respond (.rest rfl) rfl rfl rfl rfl id rfl

theorem turn (keeps : m.Keeps next) (origins : next.origins = m.origins)
    (live : ∀ handle, next.server.handles.Live handle → m.server.handles.Live handle)
    (req : next.request = m.request) (stays : next.watcher.leaving = false)
    (stop : next.server.initialStop.isSome = true → m.server.initialStop.isSome = true)
    (owned : next.server.owned = m.server.owned) : Current next :=
  current.rest keeps origins live (.inr req) (entering_of_turn stays stop owned)

theorem watched (effect : WatchEffect m next) :
    Current next := by
  have dead : ∀ handle, m.server.handles.invalidate.Live handle →
      m.server.handles.Live handle := fun handle isLive =>
    absurd isLive (m.server.handles.not_live_invalidate handle)
  cases effect with
  | receive _ known _ _ stepped | receiveError _ known _ _ stepped =>
    exact current.turn (.call known rfl stepped rfl) rfl (fun _ isLive => isLive) rfl
      rfl id rfl
  | finish =>
    refine current.turn (.rest rfl) rfl (fun _ isLive => isLive) rfl rfl ?_ rfl
    intro some_
    cases some_
  | translate at_ _ effect =>
    cases effect with
    | created | laterStop =>
      exact current.turn (.rest rfl) rfl (fun _ isLive => isLive) rfl rfl id rfl
    | running =>
      exact current.turn (.rest rfl) rfl dead rfl rfl id rfl
    | firstStop =>
      refine current.turn (.rest rfl) rfl (fun _ isLive => isLive) rfl rfl ?_ rfl
      intro some_
      cases some_
    | suppressed _ initial left_ =>
      refine current.rest (.rest rfl) rfl dead (.inr rfl) ?_
      intro _
      have hidden := stopOnEntry_of_resolve left_
      simp [entering, at_, initial, hidden]
    | ended =>
      refine current.turn (.rest rfl) rfl dead rfl rfl ?_ rfl
      intro some_
      cases some_
  | continueEntry at_ known stepped =>
    refine current.rest (.call known rfl stepped rfl) rfl (fun _ isLive => isLive)
      (.inr rfl) ?_
    intro _
    simp [entering, at_]
  | commitRefused _ known refused stepped =>
    exact current.turn (.refused known rfl refused stepped) rfl
      (fun _ isLive => isLive) rfl rfl id rfl
  | commitEntry at_ =>
    exact of_bare (current.entry (by simp [entering, at_]))
  | _ =>
    exact current.turn (.rest rfl) rfl (fun _ isLive => isLive) rfl rfl id rfl

theorem step (attached : Attached m) (allowed : m.inspectsSettled action = true)
    (effect : Effect host m action next) : Current next := by
  cases effect with
  | read | stopReading =>
    exact current.respond (.rest rfl) rfl rfl rfl rfl id rfl
  | handle effect => exact current.request attached allowed effect
  | watch effect => exact current.watched effect
  | @debugger call _ _ known alone stepped =>
    have calm : commands call = false := by
      cases call with
      | start | commitResume => cases alone
      | _ => rfl
    exact current.rest (.call known rfl stepped calm) rfl (fun _ isLive => isLive)
      (.inr rfl) (entering_of_same rfl id rfl)

end

end Current

/-- The adapter takes the handle for a current one, of some kind. -/
def Classified (table : HandleTable) (handle : Int) : Prop :=
  (table.frameIndex handle).2 = .current ∨ (table.scopeVariables handle).2 = .current ∨
    (table.variableReference handle).2 = .current

theorem live_of_classified (classified : Classified table handle) : table.Live handle := by
  rcases classified with isCurrent | isCurrent | isCurrent
  · exact .inl (AList.lookup_isSome.mp (HandleTable.current_of_status isCurrent))
  · exact .inr (.inl (AList.lookup_isSome.mp (HandleTable.current_of_status isCurrent)))
  · exact .inr (.inr (AList.lookup_isSome.mp (HandleTable.current_of_status isCurrent)))

/-- As long as no inspection reads in a pause that the adapter is about to leave by
itself, a handle that is current while the session is paused was given for data read in
that pause. -/
theorem current_handles_of_pause (reached : Run (Machine.step host) (fun m action =>
      m.inspectsSettled action = true) .new m)
    (known : m.debugger = some dbg) (paused : dbg.session.state = .stopped)
    (classified : Classified m.server.handles handle) :
    m.origins handle = some dbg.session.sequence := by
  have both : Attached m ∧ Current m := by
    apply reached.invariant
    · exact ⟨attached_new, current_new⟩
    · intro state action after held allowed taken
      have effect := Effect.of_step taken
      exact ⟨held.1.step effect, held.2.step held.1 allowed effect⟩
  obtain ⟨other, read, knownOther, origin, fresh⟩ :=
    both.2.live handle (live_of_classified classified)
  cases known.symm.trans knownOther
  rcases fresh with ended | ⟨_, same⟩
  · rw [paused] at ended
    cases ended
  · rw [origin, same]

/-- The entry is shown and its frame is inspected. -/
def inspectedSchedule : List Action :=
  startSchedule true ++ List.replicate 7 .watch ++
    [.read (.stackTrace 1 0 0), .handle (succeeding true), .handle (succeeding true)]

theorem current_handles_of_pause_shown :
    ∃ m dbg, Run (Machine.step plainHost) (fun m action =>
        m.inspectsSettled action = true) .new m ∧
      m.debugger = some dbg ∧ dbg.session.state = .stopped ∧
      Classified m.server.handles 1 ∧
      m.origins 1 = some dbg.session.sequence := by
  have executed : ((execute (guarded (Machine.step plainHost) fun m action =>
      m.inspectsSettled action = true) .new inspectedSchedule).bind fun m =>
        m.debugger.map fun dbg =>
          (dbg.session.state, (m.server.handles.frameIndex 1).2)) =
        some (.stopped, .current) := by
    rfl
  obtain ⟨m, reached, tested⟩ := Option.bind_eq_some_iff.mp executed
  obtain ⟨dbg, known, both⟩ := Option.map_eq_some_iff.mp tested
  have run := run_of_guarded (reaches_of_execute reached)
  have classified : Classified m.server.handles 1 :=
    Or.inl (congrArg Prod.snd both)
  have paused := congrArg Prod.fst both
  exact ⟨m, dbg, run, known, paused, classified,
    current_handles_of_pause run known paused classified⟩

/-- A stack trace reads the frame of the entry; before it gives a handle the watch
goroutine leaves the entry, and the program stops again. -/
def crossedSchedule : List Action :=
  startSchedule false ++ [.read (.stackTrace 1 0 0), .handle (succeeding false)] ++
    List.replicate 7 .watch ++
    [.debugger (.commandReturns 0 (some (stopAt .breakpoint 2)) []), .handle (succeeding false)]

theorem current_handle_of_earlier_pause :
    ∃ m dbg, Reaches (Machine.step plainHost) .new m ∧
      m.debugger = some dbg ∧ dbg.session.state = .stopped ∧
      Classified m.server.handles 1 ∧
      m.origins 1 ≠ some dbg.session.sequence := by
  have executed : ((execute (Machine.step plainHost) .new crossedSchedule).bind
      fun m => m.debugger.map fun dbg =>
        (dbg.session.state, (m.server.handles.frameIndex 1).2,
          m.origins 1, dbg.session.sequence)) =
        some (.stopped, .current, some 3, 5) := by
    rfl
  obtain ⟨m, reached, tested⟩ := Option.bind_eq_some_iff.mp executed
  obtain ⟨dbg, known, all⟩ := Option.map_eq_some_iff.mp tested
  simp only [Prod.mk.injEq] at all
  obtain ⟨paused, isCurrent, origin, number⟩ := all
  refine ⟨m, dbg, reaches_of_execute reached, known, paused, Or.inl isCurrent, ?_⟩
  rw [origin, number]
  simp

end Machine

end Ferretd.Dap

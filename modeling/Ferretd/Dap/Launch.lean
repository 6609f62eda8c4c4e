import Ferretd.Dap.Pauses

/-!
# Launching

Until its start is accepted a launched session has published nothing, and as long as the
launch request is unanswered it is not asked to end, except by a cleanup that has cancelled
the subscription first.
-/

namespace Ferretd.Dap

open Library Library.Broadcast List

namespace Attends

variable {pc : WatcherPC} {sub : Subscription} {next dbg : Debug.SessionMachine}

theorem created_call {action : Debug.SessionAction} (attends : Attends pc dbg sub)
    (stepped : dbg.step action = some next) (created : next.session.state = .created) :
    dbg.session.state = .created ∧
      ∃ after, next.session.watchers 0 = some after ∧
        after.placed = sub.placed ∧ after.reported = sub.reported ∧
        (action.reader = none → after = sub) := by
  have watches := attends.session.watched 0 sub attends.found
  obtain ⟨after, foundAfter, changed⟩ :=
    attends.session.watcher_next (Debug.Effect.of_step stepped) attends.found
  rcases changed with ⟨publishes, _⟩ | ⟨rests, rfl | ⟨op, allowed, reads, rfl⟩⟩
  · exfalso
    have moves := publishes.moves
    have changed := publishes.changed
    rw [created] at moves changed
    generalize dbg.session.state = state at moves changed
    cases moves with
    | stay => exact changed rfl
  · exact ⟨rests.state.symm.trans created, after, foundAfter, rfl, rfl, fun _ => rfl⟩
  · refine ⟨rests.state.symm.trans created, _, foundAfter, allowed.placed sub,
      watches.reported_reader allowed, ?_⟩
    intro unread
    obtain ⟨target, reads⟩ := reads
    rw [unread] at reads
    cases reads

end Attends

variable {answers : Answers} {action : Action} {call : Debug.SessionAction}

namespace Machine

variable {slot : Nat} {kind : Debug.ResumeKind} {ctxErr : GoError} {m next : Machine}

/-! ## The record of the initial stop -/

structure Dormant (m : Machine) (sub : Subscription) : Prop where
  silent : sub.placed = [] ∧ sub.reported = []
  registered : m.request.serving = true ∨ m.request.preparing = true →
    sub.registered = true ∧
      (m.watcher = .unstarted ∨ m.watcher = .receiving .events)
  armed : m.request.serving = true → m.server.initialStop ≠ none

def Armed (m : Machine) : Prop :=
  ∀ dbg sub, m.debugger = some dbg →
    dbg.session.watchers 0 = some sub →
    dbg.session.state = .created → Dormant m sub

theorem armed_new : Armed .new := by
  intro dbg sub known
  cases known

namespace Armed

variable {dbg : Debug.SessionMachine}

section

variable (armed : Armed m) (attached : Attached m) (attachedNext : Attached next)
include armed attached attachedNext

section

variable (moves : DebuggerMove m next)
  (launched : next.server.launched = m.server.launched)
include moves launched

theorem before {sub : Subscription} (known : next.debugger = some dbg)
    (found : dbg.session.watchers 0 = some sub) (created : dbg.session.state = .created) :
    ∃ earlier previous, m.debugger = some earlier ∧
      earlier.session.watchers 0 = some previous ∧ Dormant m previous ∧
      sub.placed = previous.placed ∧ sub.reported = previous.reported ∧
      (next.request.serving = true ∨ next.request.preparing = true → sub = previous) := by
  cases moves with
  | rest same =>
    have knownBefore := same.symm.trans known
    exact ⟨dbg, sub, knownBefore, found,
      armed dbg sub knownBefore found created, rfl, rfl, fun _ => rfl⟩
  | launch fresh =>
    have none_ := (attachedNext.unlaunched (launched.trans fresh)).1
    rw [known] at none_
    cases none_
  | @call _ earlier after knownBefore reached stepped _ cancels =>
    cases reached.symm.trans known
    obtain ⟨previous, attends⟩ := attached.session earlier knownBefore
    obtain ⟨createdBefore, after, foundAfter, placed, reported, same⟩ :=
      attends.created_call stepped created
    cases foundAfter.symm.trans found
    refine ⟨earlier, previous, knownBefore, attends.found, armed earlier previous
      knownBefore attends.found createdBefore, placed, reported, ?_⟩
    intro serves
    apply same
    by_contra reads
    obtain ⟨idle, unprepared⟩ := cancels reads
    rcases serves with serving | preparing
    · rw [idle] at serving
      cases serving
    · rw [unprepared] at preparing
      cases preparing
  | @receive other _ _ earlier _ knownBefore reached foundBefore buffered stepped =>
    exfalso
    cases reached.symm.trans known
    obtain ⟨previous, attends⟩ := attached.session earlier knownBefore
    obtain ⟨createdBefore, _⟩ := attends.created_call stepped created
    have silent := (armed earlier other knownBefore foundBefore createdBefore).silent.1
    simp [Subscriber.placed, buffered] at silent
  | @receiveError other _ _ earlier _ knownBefore reached foundBefore buffered stepped =>
    exfalso
    cases reached.symm.trans known
    obtain ⟨previous, attends⟩ := attached.session earlier knownBefore
    obtain ⟨createdBefore, _⟩ := attends.created_call stepped created
    have silent := (armed earlier other knownBefore foundBefore createdBefore).silent.2
    simp [Subscriber.reported, buffered] at silent

/-- A step after which the request goroutine serves or prepares only if it did before,
and the watch goroutine and the record are as they were. -/
theorem keep (req : next.request.serving = true ∨ next.request.preparing = true →
      m.request.serving = true ∨ m.request.preparing = true)
    (watcher : next.watcher = m.watcher) (stop : next.request.serving = true →
      m.request.serving = true ∧
        (m.server.initialStop ≠ none → next.server.initialStop ≠ none)) :
    Armed next := by
  intro dbg sub known found created
  obtain ⟨earlier, previous, _, _, dormant, placed, reported, same⟩ :=
    armed.before attached attachedNext moves launched known found created
  refine ⟨⟨placed.trans dormant.silent.1, reported.trans dormant.silent.2⟩, ?_, ?_⟩
  · intro serves
    rw [same serves, watcher]
    exact dormant.registered (req serves)
  · intro serves
    obtain ⟨served, kept⟩ := stop serves
    exact kept (dormant.armed served)

theorem serve (serving : m.request.serving = true) (watcher : next.watcher = m.watcher)
    (stop : next.request.serving = true → m.server.initialStop ≠ none →
      next.server.initialStop ≠ none) : Armed next :=
  armed.keep attached attachedNext moves launched (fun _ => .inl serving) watcher
    fun serves => ⟨serving, stop serves⟩

theorem clean
    (unserving : next.request.serving = false) (unprepared : next.request.preparing = false)
    (watcher : next.watcher = m.watcher) : Armed next := by
  refine armed.keep attached attachedNext moves launched ?_ watcher ?_
  · rintro (serves | prepares)
    · rw [unserving] at serves
      cases serves
    · rw [unprepared] at prepares
      cases prepares
  · intro serves
    rw [unserving] at serves
    cases serves

end

end

theorem serving_of_owing {pc : RequestPC} {req : Nat} (owes : pc.owing = some req) :
    pc.serving = true := by
  cases pc with
  | idle | announcing | arming | cleaning | ended => cases owes
  | _ => rfl

section

variable {host : Host} (armed : Armed m) (attached : Attached m)
include armed attached

theorem request (effect : RequestEffect host answers m next) : Armed next := by
  have moves := RequestEffect.moves effect
  have attachedNext := attached.request effect
  have handling : ∀ number arguments, m.request = .handling number arguments →
      m.request.serving = true := by
    intro number arguments at_
    rw [at_]
    rfl
  cases effect with
  | answer owes _ same =>
    refine armed.serve attached attachedNext moves same.launched (serving_of_owing owes)
      rfl ?_
    intro _ stop
    exact same.initialStop ▸ stop
  | replace at_ _ _ _ committed =>
    obtain ⟨_, rfl⟩ := Server.commitBreakpoints_ok committed
    refine armed.serve attached attachedNext moves rfl (handling _ _ at_) rfl ?_
    intro _ stop none_
    exact stop (Option.map_eq_none_iff.mp none_)
  | @launch _ session _ fresh =>
    intro dbg sub known found _
    obtain ⟨other, attends, placed, registered⟩ := Attends.launched session
    cases known
    cases attends.found.symm.trans found
    have tracks := (attends.session.watched 0 sub attends.found).tracks
    refine ⟨⟨placed, tracks.noErrorYet registered⟩, ?_, ?_⟩
    · intro _
      exact ⟨registered, .inl (attached.unlaunched fresh).2⟩
    · nofun
  | announce at_ =>
    refine armed.keep attached attachedNext moves rfl ?_ rfl ?_
    · intro _
      exact .inr (by rw [at_]; rfl)
    · nofun
  | arm at_ =>
    intro dbg sub known found created
    have dormant := armed dbg sub known found created
    refine ⟨dormant.silent, ?_, ?_⟩
    · intro _
      exact ⟨(dormant.registered (.inr (by rw [at_]; rfl))).1, .inr rfl⟩
    · nofun
  | start at_ _ _ _ _ _ _ isArmed =>
    unfold Server.startAccepted at isArmed
    split at isArmed
    · cases isArmed
    cases isArmed
    refine armed.serve attached attachedNext moves rfl (handling _ _ at_) rfl ?_
    intro _ _ none_
    cases none_
  | requestResume at_ | readScope at_ =>
    exact armed.serve attached attachedNext moves rfl (handling _ _ at_) rfl fun _ stop => stop
  | resumeRefused at_ | resume at_ | allocate at_ =>
    exact armed.serve attached attachedNext moves rfl (by rw [at_]; rfl) rfl fun _ stop => stop
  | terminate at_ _ _ _ server_ =>
    rcases server_ with rfl | rfl
    · exact armed.serve attached attachedNext moves rfl (handling _ _ at_) rfl fun _ stop => stop
    · exact armed.serve attached attachedNext moves rfl (handling _ _ at_) rfl fun _ stop => stop
  | lookUp owes | inspect owes =>
    exact armed.serve attached attachedNext moves rfl (serving_of_owing owes) rfl
      fun _ stop => stop
  | cleanup _ effect =>
    cases effect with
    | _ =>
      exact armed.clean attached attachedNext moves rfl rfl rfl rfl
  | _ =>
    exact armed.clean attached attachedNext moves rfl rfl rfl rfl

/-- The watch goroutine has nothing to do while a session waits for its start, unless the
subscription was cancelled. -/
theorem watched (effect : WatchEffect m next) : Armed next := by
  obtain ⟨req, _, same, _, _⟩ := effect.frame
  intro dbg sub known found created
  obtain ⟨earlier, previous, knownBefore, foundBefore, dormant, placed, reported, _⟩ :=
    armed.before attached (attached.watched effect) effect.moves same.launched known found created
  have idle : ¬ (m.request.serving = true ∨ m.request.preparing = true) := by
    intro serves
    obtain ⟨registered, waits⟩ := dormant.registered serves
    have stands : ∀ pc, m.watcher = pc → pc = .unstarted ∨ pc = .receiving .events := by
      intro pc at_
      rw [← at_]
      exact waits
    cases effect with
    | receive _ knownOther foundOther buffered =>
      cases knownBefore.symm.trans knownOther
      cases foundBefore.symm.trans foundOther
      have silent := dormant.silent.1
      simp [Subscriber.placed, buffered] at silent
    | eventsEnd _ knownOther foundOther _ closed =>
      cases knownBefore.symm.trans knownOther
      cases foundBefore.symm.trans foundOther
      obtain ⟨_, attends⟩ := attached.session _ knownOther
      cases foundOther.symm.trans attends.found
      have closedIff := (attends.session.watched 0 _ attends.found).tracks.closedIff
      rw [closed, registered] at closedIff
      cases closedIff
    | receiveError at_ | errorsEnd at_ | translate at_
    | continueRefused at_ | continueEntry at_ | commitRefused at_
    | commitEntry at_ | write at_ | leave at_ | report at_ | finish at_ =>
      rcases stands _ at_ with impossible | impossible <;> cases impossible
  refine ⟨⟨placed.trans dormant.silent.1, reported.trans dormant.silent.2⟩, ?_, ?_⟩
  · rw [req]
    intro serves
    exact absurd serves idle
  · rw [req]
    intro serves
    exact absurd (.inl serves) idle

theorem step (effect : Effect host m action next) : Armed next := by
  have moves := effect.moves
  have attachedNext := attached.step effect
  cases effect with
  | read at_ =>
    exact armed.serve attached attachedNext moves rfl (by rw [at_]; rfl) rfl fun _ stop => stop
  | stopReading => exact armed.clean attached attachedNext moves rfl rfl rfl rfl
  | handle effect => exact armed.request attached effect
  | watch effect => exact armed.watched attached effect
  | debugger =>
    refine armed.keep attached attachedNext moves rfl id rfl ?_
    intro serves
    exact ⟨serves, id⟩

theorem armed_of_start {req : Nat} {started : Debug.Session}
    (at_ : m.request = .handling req .configurationDone) (known : m.debugger = some dbg)
    (accepted : ∃ snapshot, dbg.session.startCommand [] .created = .ok (snapshot, started)) :
    m.server.initialStop ≠ none := by
  obtain ⟨snapshot, accepted⟩ := accepted
  have created := (Debug.Session.startCommand_ok accepted).2.2.1
  obtain ⟨sub, attends⟩ := attached.session dbg known
  have dormant := armed dbg sub known attends.found created
  exact dormant.armed (by rw [at_]; rfl)

end

end Armed

/-! ## An unanswered launch -/

def Answered (m : Machine) (req : Nat) : Prop :=
  ∃ result, .response req result ∈ m.written

/-- A session that does nothing unless it is asked to. -/
structure Inactive (dbg : Debug.SessionMachine) : Prop where
  created : dbg.session.state = .created
  commands : dbg.commands = []
  terminations : dbg.terminations = 0
  closer : dbg.closer = none

theorem inactive_launched (session : LaunchedSession) : Inactive session.debugger :=
  ⟨rfl, rfl, rfl, rfl⟩

variable {dbg : Debug.SessionMachine}

theorem Inactive.not_spontaneous {next : Debug.SessionMachine} (inactive : Inactive dbg)
    (alone : spontaneous call = true) : dbg.step call ≠ some next := by
  obtain ⟨_, commands, terminations, closer⟩ := inactive
  cases call with
  | commandReturns => simp [Debug.SessionMachine.step, commands]
  | terminate => simp [Debug.SessionMachine.step, terminations]
  | close => simp [Debug.SessionMachine.step, closer]
  | _ => cases alone

theorem Inactive.requestResume {next : Debug.SessionMachine} (inactive : Inactive dbg)
    (stepped : dbg.step (.requestResume slot kind) = some next) : Inactive next := by
  simp only [Debug.SessionMachine.step] at stepped
  split at stepped
  · cases stepped
  · cases stepped
    exact ⟨inactive.created, inactive.commands, inactive.terminations, inactive.closer⟩

theorem Inactive.commitRefused {next : Debug.SessionMachine} (inactive : Inactive dbg)
    (stepped : dbg.step (.commitResume slot ctxErr) = some next) :
    Inactive next := by
  simp only [Debug.SessionMachine.step, Debug.SessionMachine.startCommand] at stepped
  split at stepped
  · cases stepped
  split at stepped
  · cases stepped
    exact ⟨inactive.created, inactive.commands, inactive.terminations, inactive.closer⟩
  rename_i accepted
  have stopped := (Debug.Session.startCommand_ok accepted).2.2.1
  rw [inactive.created] at stopped
  cases stopped

theorem resumeError_of_created (created : dbg.session.state = .created) :
    resumeError dbg ctxErr ≠ [] := by
  intro accepted
  unfold resumeError at accepted
  cases outcome : dbg.session.startCommand ctxErr .stopped with
  | ok =>
    have stopped := (Debug.Session.startCommand_ok outcome).2.2.1
    rw [created] at stopped
    cases stopped
  | error =>
    rw [outcome] at accepted
    subst accepted
    unfold Debug.Session.startCommand at outcome
    split at outcome
    next failed =>
      cases outcome
      exact failed rfl
    · split at outcome
      · cases outcome
      · simp [created] at outcome

end Machine

def RequestPC.subscribed : RequestPC → Bool
  | .cleaning .takePendingLaunch _ _ | .cleaning .invalidateHandles _ _
  | .cleaning .cancelWatch _ _ => true
  | .cleaning _ _ _ | .ended _ => false
  | _ => true

def WatcherPC.quiet : WatcherPC → Bool
  | .unstarted | .receiving _ | .finishing | .ended => true
  | _ => false

namespace Machine

variable {host : Host} {m next : Machine}

/-- What holds while the launch request with this number is unanswered. -/
structure Waiting (m : Machine) (req : Nat) (dbg : Debug.SessionMachine)
    (sub : Subscription) : Prop where
  known : m.debugger = some dbg
  found : dbg.session.watchers 0 = some sub
  silent : sub.placed = [] ∧ sub.reported = []
  inactive : m.request.subscribed = true → Inactive dbg
  cancelled : m.request.subscribed = false → sub.registered = false
  pending : m.request.serving = true ∨ m.request.preparing = true →
    m.server.pendingLaunch = some req
  quiet : m.watcher.quiet = true

/-- Nothing is reported before there is a session, nor while its launch is unanswered. -/
structure Withheld (m : Machine) : Prop where
  unlaunched : m.server.launched = false →
    ∀ msg ∈ m.written, msg.reports = false
  waiting : ∀ req, m.launchedBy = some req → ¬ m.Answered req →
    (∀ msg ∈ m.written, msg.reports = false) ∧
      ∃ dbg sub, m.Waiting req dbg sub

theorem withheld_new : Withheld .new where
  unlaunched := nofun
  waiting := nofun

theorem RequestEffect.writes (effect : RequestEffect host answers m next) :
    ∃ added, next.written = m.written ++ added ∧
      ∀ msg ∈ added, msg.reports = false := by
  have launch : ∀ result, ∀ msg ∈ launchResponses m.server result,
      msg.reports = false := by
    intro result msg member
    unfold launchResponses at member
    split at member
    · cases member
    · cases mem_singleton.mp member
      rfl
  cases effect with
  | answer | replace | resumeRefused | resume | announce | startUnarmed =>
    refine ⟨_, rfl, ?_⟩
    intro msg member
    cases mem_singleton.mp member
    rfl
  | startFails | start | terminate | disconnect =>
    refine ⟨_, append_assoc _ _ _, ?_⟩
    intro msg member
    rcases mem_append.mp member with first | second
    · first
      | exact launch _ msg first
      | cases mem_singleton.mp first
        rfl
    first
    | exact launch _ msg second
    | cases mem_singleton.mp second
      rfl
  | cleanup _ effect =>
    cases effect with
    | _ =>
      exact ⟨[], (append_nil _).symm, by simp⟩
  | _ => exact ⟨[], (append_nil _).symm, by simp⟩

namespace Waiting

variable {req : Nat} {dbg : Debug.SessionMachine} {sub : Subscription}

variable {after : Debug.SessionMachine}

section

variable (waiting : m.Waiting req dbg sub)
include waiting

theorem hold (reached : next.debugger = some after) (session : after.session = dbg.session)
    (inactive : Inactive dbg → Inactive after)
    (subscribed : next.request.subscribed = m.request.subscribed)
    (pending : next.request.serving = true ∨ next.request.preparing = true →
      next.server.pendingLaunch = some req) (quiet : next.watcher.quiet = true) :
    next.Waiting req after sub where
  known := reached
  found := by
    rw [session]
    exact waiting.found
  silent := waiting.silent
  inactive := fun isSubscribed => inactive (waiting.inactive (subscribed ▸ isSubscribed))
  cancelled := fun isCancelled => waiting.cancelled (subscribed ▸ isCancelled)
  pending := pending
  quiet := quiet

theorem serve (same : next.debugger = m.debugger)
    (serving : m.request.serving = true) (subscribed : next.request.subscribed = true)
    (pending : next.server.pendingLaunch = m.server.pendingLaunch)
    (watcher : next.watcher = m.watcher) :
    next.Waiting req dbg sub := by
  refine waiting.hold (same.trans waiting.known) rfl id ?_ ?_ ?_
  · rw [subscribed]
    cases pc : m.request with
    | announcing | arming | cleaning | ended =>
      rw [pc] at serving
      cases serving
    | _ => rfl
  · intro _
    rw [pending]
    exact waiting.pending (.inl serving)
  · rw [watcher]
    exact waiting.quiet

section

variable (attached : Attached m) (reached : next.debugger = some after)
include attached reached

theorem close (stepped : dbg.step call = some after)
    (unsubscribed : m.request.subscribed = false) (still : next.request.subscribed = false)
    (idle : next.request.serving = false ∧ next.request.preparing = false)
    (watcher : next.watcher = m.watcher) :
    ∃ later, next.Waiting req after later := by
  obtain ⟨other, attends⟩ := attached.session dbg waiting.known
  cases waiting.found.symm.trans attends.found
  obtain ⟨later, foundLater, unregistered, placed, reported⟩ :=
    attends.session.closed_next (Debug.Effect.of_step stepped) waiting.found
      (waiting.cancelled unsubscribed)
  refine ⟨later, reached, foundLater, ⟨placed.trans waiting.silent.1,
    reported.trans waiting.silent.2⟩, ?_, fun _ => unregistered, ?_, ?_⟩
  · intro subscribed
    rw [still] at subscribed
    cases subscribed
  · rintro (serves | prepares)
    · rw [idle.1] at serves
      cases serves
    · rw [idle.2] at prepares
      cases prepares
  · rw [watcher]
    exact waiting.quiet

theorem cancel (stepped : dbg.step (.unsubscribe 0) = some after)
    (still : next.request.subscribed = false)
    (idle : next.request.serving = false ∧ next.request.preparing = false)
    (watcher : next.watcher = m.watcher) :
    ∃ later, next.Waiting req after later := by
  obtain ⟨other, attends⟩ := attached.session dbg waiting.known
  cases waiting.found.symm.trans attends.found
  have watches := attends.session.watched 0 sub waiting.found
  obtain ⟨_, unregistered, _, reported, _⟩ :=
    Subscriber.cancel_frame sub watches.tracks.closedIff watches.cancelled
  cases stepped
  refine ⟨sub.cancel, reached, ?_, ⟨?_, reported.trans waiting.silent.2⟩, ?_,
    fun _ => unregistered, ?_, ?_⟩
  · simp [Debug.SessionMachine.watch, Hub.modify, waiting.found]
  · rw [Subscriber.placed_cancel]
    exact waiting.silent.1
  · intro subscribed
    rw [still] at subscribed
    cases subscribed
  · rintro (serves | prepares)
    · rw [idle.1] at serves
      cases serves
    · rw [idle.2] at prepares
      cases prepares
  · rw [watcher]
    exact waiting.quiet

end

end

end Waiting

namespace Withheld

theorem extend (withheld : Withheld m) (launchedBy : next.launchedBy = m.launchedBy)
    (launched : next.server.launched = m.server.launched)
    (writes : ∃ added, next.written = m.written ++ added ∧
      ∀ msg ∈ added, msg.reports = false)
    (waits : ∀ req dbg sub, ¬ next.Answered req →
      m.Waiting req dbg sub →
        ∃ after later, next.Waiting req after later) : Withheld next := by
  obtain ⟨added, written, silent⟩ := writes
  have grown : ∀ req, ¬ next.Answered req → ¬ m.Answered req := by
    rintro req unanswered ⟨result, member⟩
    apply unanswered
    refine ⟨result, ?_⟩
    rw [written]
    exact mem_append_left added member
  have unreported : (∀ msg ∈ m.written, msg.reports = false) →
      ∀ msg ∈ next.written, msg.reports = false := by
    intro before msg member
    rw [written] at member
    rcases mem_append.mp member with old | new
    · exact before msg old
    · exact silent msg new
  constructor
  · intro unlaunched
    rw [launched] at unlaunched
    exact unreported (withheld.unlaunched unlaunched)
  intro req launching unanswered
  rw [launchedBy] at launching
  obtain ⟨before, dbg, sub, waiting⟩ :=
    withheld.waiting req launching (grown req unanswered)
  exact ⟨unreported before, waits req dbg sub unanswered waiting⟩

theorem mem_launchResponses {req : Nat}
    (pending : m.server.pendingLaunch = some req) (result : Except GoError Body) :
    .response req result ∈ launchResponses m.server result := by
  simp [launchResponses, pending]

section

variable {pc : CleanupPC} {locked : Bool} {result : RunEnd} (withheld : Withheld m)
  (attached : Attached m)
include withheld attached

theorem cleanup (at_ : m.request = .cleaning pc locked result)
    (effect : CleanupEffect m locked result pc next) : Withheld next := by
  have silent : ∃ added, m.written = m.written ++ added ∧
      ∀ msg ∈ added, msg.reports = false :=
    ⟨[], (append_nil _).symm, by simp⟩
  have unasked : ∀ pc, ¬ ((RequestPC.cleaning pc locked result).serving = true ∨
      (RequestPC.cleaning pc locked result).preparing = true) := by
    rintro pc (serves | prepares)
    · cases serves
    · cases prepares
  cases effect with
  | skip unlaunched =>
    refine withheld.extend rfl rfl silent ?_
    intro req dbg sub _ waiting
    have known := waiting.known
    rw [unlaunched] at known
    cases known
  | finish =>
    refine withheld.extend rfl rfl silent ?_
    intro req dbg sub _ waiting
    refine ⟨dbg, sub, waiting.hold waiting.known rfl id ?_ ?_ waiting.quiet⟩
    · rw [at_]
      rfl
    · rintro (serves | prepares)
      · cases serves
      · cases prepares
  | @call _ _ _ _ after known called stepped =>
    refine withheld.extend rfl rfl silent ?_
    intro req dbg sub _ waiting
    cases known.symm.trans waiting.known
    refine ⟨after, ?_⟩
    rcases called with called | called | called
    · cases called
      exact waiting.cancel attached rfl stepped rfl ⟨rfl, rfl⟩ rfl
    · cases called
      exact waiting.close attached rfl stepped (by rw [at_]; rfl) rfl ⟨rfl, rfl⟩ rfl
    · cases called
      exact waiting.close attached rfl stepped (by rw [at_]; rfl) rfl ⟨rfl, rfl⟩ rfl
  | _ =>
    refine withheld.extend rfl rfl silent ?_
    intro req dbg sub _ waiting
    refine ⟨dbg, sub, waiting.hold waiting.known rfl
      id ?_ (fun asked => absurd asked (unasked _)) waiting.quiet⟩
    rw [at_]
    rfl

theorem request (armed : Armed m) (effect : RequestEffect host answers m next) : Withheld next := by
  have writes := RequestEffect.writes effect
  have handling : ∀ number arguments, m.request = .handling number arguments →
      m.request.serving = true := by
    intro number arguments at_
    rw [at_]
    rfl
  cases effect with
  | answer owes _ same =>
    refine withheld.extend rfl same.launched writes ?_
    intro number dbg sub _ waiting
    exact ⟨dbg, sub, waiting.serve rfl (Armed.serving_of_owing owes) rfl same.pendingLaunch rfl⟩
  | replace at_ _ _ _ committed =>
    obtain ⟨_, rfl⟩ := Server.commitBreakpoints_ok committed
    refine withheld.extend rfl rfl writes ?_
    intro number dbg sub _ waiting
    exact ⟨dbg, sub, waiting.serve rfl (handling _ _ at_) rfl rfl rfl⟩
  | @launch _ session _ fresh =>
    refine ⟨?_, ?_⟩
    · nofun
    intro number launching unanswered
    cases launching
    refine ⟨withheld.unlaunched fresh, ?_⟩
    obtain ⟨sub, attends, placed, registered⟩ := Attends.launched session
    have tracks := (attends.session.watched 0 sub attends.found).tracks
    refine ⟨session.debugger, sub, rfl, attends.found,
      ⟨placed, tracks.noErrorYet registered⟩, fun _ => inactive_launched session, ?_,
      fun _ => rfl, ?_⟩
    · nofun
    · show m.watcher.quiet = true
      rw [(attached.unlaunched fresh).2]
      rfl
  | announce at_ =>
    refine withheld.extend rfl rfl writes ?_
    intro number dbg sub _ waiting
    refine ⟨dbg, sub, waiting.hold waiting.known rfl id ?_ ?_ waiting.quiet⟩
    · rw [at_]
      rfl
    · intro _
      exact waiting.pending (.inr (by rw [at_]; rfl))
  | arm at_ =>
    refine withheld.extend rfl rfl writes ?_
    intro number dbg sub _ waiting
    refine ⟨dbg, sub, waiting.hold waiting.known rfl id ?_ ?_ rfl⟩
    · rw [at_]
      rfl
    · intro _
      exact waiting.pending (.inr (by rw [at_]; rfl))
  | @startFails _ _ dbg at_ =>
    refine withheld.extend rfl rfl writes ?_
    intro number dbg sub unanswered waiting
    have pending := waiting.pending (.inl (handling _ _ at_))
    exact absurd ⟨_, mem_append_right _ (mem_launchResponses pending _)⟩ unanswered
  | @start _ dbg _ _ at_ _ _ _ _ _ _ isArmed =>
    unfold Server.startAccepted at isArmed
    split at isArmed
    · cases isArmed
    cases isArmed
    refine withheld.extend rfl rfl writes ?_
    intro number dbg sub unanswered waiting
    have pending := waiting.pending (.inl (handling _ _ at_))
    exact absurd ⟨_, mem_append_right _ (mem_launchResponses pending _)⟩ unanswered
  | startUnarmed at_ _ known _ _ accepted _ unarmed =>
    exact absurd unarmed (armed.armed_of_start attached at_ known accepted)
  | misanswered at_ | overflow at_ | readScope at_ =>
    refine withheld.extend rfl rfl writes ?_
    intro number dbg sub _ waiting
    exact ⟨dbg, sub, waiting.serve rfl (handling _ _ at_) rfl rfl rfl⟩
  | @requestResume _ _ _ dbg after at_ _ _ known stepped =>
    refine withheld.extend rfl rfl writes ?_
    intro number other sub _ waiting
    cases known.symm.trans waiting.known
    have session : after.session = dbg.session := by
      simp only [Debug.SessionMachine.step] at stepped
      split at stepped
      · cases stepped
      · cases stepped
        rfl
    refine ⟨after, sub, waiting.hold rfl session
      (fun inactive => inactive.requestResume stepped) ?_ ?_ waiting.quiet⟩
    · rw [at_]
      rfl
    · intro _
      exact waiting.pending (.inl (handling _ _ at_))
  | @resumeRefused _ _ _ _ _ after at_ known refused isError stepped =>
    subst refused
    refine withheld.extend rfl rfl writes ?_
    intro number other sub _ waiting
    cases known.symm.trans waiting.known
    refine ⟨after, sub, waiting.hold rfl (session_of_refused isError stepped)
      (fun inactive => inactive.commitRefused stepped) ?_ ?_ waiting.quiet⟩
    · rw [at_]
      rfl
    · intro _
      exact waiting.pending (.inl (by rw [at_]; rfl))
  | resume at_ known accepted =>
    refine withheld.extend rfl rfl writes ?_
    intro number other sub _ waiting
    cases known.symm.trans waiting.known
    have created := (waiting.inactive (by rw [at_]; rfl)).created
    exact absurd accepted (resumeError_of_created created)
  | @terminate _ _ _ _ _ server at_ _ _ _ server_ =>
    have launched : server.launched = m.server.launched := by
      rcases server_ with rfl | rfl <;> rfl
    refine withheld.extend rfl launched writes ?_
    intro number other sub unanswered waiting
    have pending := waiting.pending (.inl (handling _ _ at_))
    exact absurd ⟨_, mem_append_left _
      (mem_append_right _ (mem_launchResponses pending _))⟩ unanswered
  | disconnect at_ =>
    refine withheld.extend rfl rfl writes ?_
    intro number other sub unanswered waiting
    have pending := waiting.pending (.inl (handling _ _ at_))
    exact absurd ⟨_, mem_append_left _
      (mem_append_right _ (mem_launchResponses pending _))⟩ unanswered
  | lookUp owes _ goes =>
    refine withheld.extend rfl rfl writes ?_
    intro number dbg sub _ waiting
    refine ⟨dbg, sub, waiting.serve rfl (Armed.serving_of_owing owes) ?_ rfl rfl⟩
    rcases goes with ⟨reference, rfl⟩ | ⟨inspection, rfl⟩ <;> rfl
  | @inspect _ _ dbg owes =>
    refine withheld.extend rfl rfl writes ?_
    intro number dbg sub _ waiting
    exact ⟨dbg, sub, waiting.serve rfl (Armed.serving_of_owing owes) rfl rfl rfl⟩
  | allocate at_ =>
    refine withheld.extend rfl rfl writes ?_
    intro number dbg sub _ waiting
    exact ⟨dbg, sub, waiting.serve rfl (by rw [at_]; rfl) rfl rfl rfl⟩
  | cleanup at_ effect => exact withheld.cleanup attached at_ effect

theorem watched (effect : WatchEffect m next) : Withheld next := by
  -- a waiting adapter only follows the ends of its channels
  have waits : ∀ req dbg sub,
      m.Waiting req dbg sub →
        next.Waiting req dbg sub ∧ next.written = m.written := by
    intro req dbg sub waiting
    have quiet : ∀ pc, m.watcher = pc → pc.quiet = true := by
      intro pc at_
      rw [← at_]
      exact waiting.quiet
    cases effect with
    | receive _ knownOther foundOther buffered =>
      cases waiting.known.symm.trans knownOther
      cases waiting.found.symm.trans foundOther
      have silent := waiting.silent.1
      simp [Subscriber.placed, buffered] at silent
    | receiveError _ knownOther foundOther buffered =>
      cases waiting.known.symm.trans knownOther
      cases waiting.found.symm.trans foundOther
      have silent := waiting.silent.2
      simp [Subscriber.reported, buffered] at silent
    | translate at_ | continueRefused at_ | continueEntry at_
    | commitRefused at_ | commitEntry at_ | write at_ | leave at_
    | report at_ => cases quiet _ at_
    | _ =>
      exact ⟨waiting.hold waiting.known rfl id rfl waiting.pending rfl, rfl⟩
  obtain ⟨_, _, same, launchedBy, _⟩ := effect.frame
  constructor
  · intro unlaunched
    rw [same.launched] at unlaunched
    exact absurd (attached.unlaunched unlaunched).2 effect.started
  intro req launching unanswered
  rw [launchedBy] at launching
  have before : ¬ m.Answered req := by
    rintro ⟨result, member⟩
    apply unanswered
    refine ⟨result, ?_⟩
    cases effect with
    | write => exact mem_append_left _ member
    | _ => exact member
  obtain ⟨unreported, dbg, sub, waiting⟩ :=
    withheld.waiting req launching before
  obtain ⟨waitingNext, written⟩ := waits req dbg sub waiting
  rw [written]
  exact ⟨unreported, dbg, sub, waitingNext⟩

theorem step (armed : Armed m) (effect : Effect host m action next) : Withheld next := by
  have silent : ∃ added, m.written = m.written ++ added ∧
      ∀ msg ∈ added, msg.reports = false :=
    ⟨[], (append_nil _).symm, by simp⟩
  cases effect with
  | read at_ | stopReading at_ =>
    refine withheld.extend rfl rfl silent ?_
    intro number dbg sub _ waiting
    exact ⟨dbg, sub, waiting.serve rfl (by rw [at_]; rfl) rfl rfl rfl⟩
  | handle effect => exact withheld.request attached armed effect
  | watch effect => exact withheld.watched attached effect
  | @debugger _ _ after known alone stepped =>
    refine withheld.extend rfl rfl silent ?_
    intro number dbg sub _ waiting
    cases known.symm.trans waiting.known
    cases subscribed : m.request.subscribed with
    | true => exact absurd stepped ((waiting.inactive subscribed).not_spontaneous alone)
    | false =>
      have idle : m.request.serving = false ∧ m.request.preparing = false := by
        cases pc : m.request with
        | cleaning | ended => exact ⟨rfl, rfl⟩
        | _ =>
          rw [pc] at subscribed
          cases subscribed
      exact ⟨after, waiting.close attached rfl stepped subscribed subscribed idle rfl⟩

end

end Withheld

end Machine

end Ferretd.Dap

import Ferretd.Dap.MachineEffects
import Ferretd.Debug.SessionWatch

/-!
# The session behind the adapter

The debug session of the adapter takes steps of the session machine only, and the adapter's
own subscription is read by the watch goroutine alone.
-/

namespace Ferretd.Dap

open Library Library.Broadcast Subscriber

abbrev Subscription := Subscriber Debug.Event Cause

/-- The debug session of a launch, with the adapter's subscription. -/
def LaunchedSession.debugger (session : LaunchedSession) : Debug.SessionMachine :=
  { Debug.SessionMachine.init session.id session.runtime with
    session := (Debug.Session.newSession session.id session.runtime).subscribe 0 }

/-- The event channel is closed and empty. -/
def Drained (sub : Subscription) : Prop :=
  sub.events.buffer = [] ∧ sub.registered = false

/-- Both channels are closed and empty. -/
def Spent (sub : Subscription) : Prop :=
  Drained sub ∧ sub.errors.buffer = []

/-- What the control point of the watch goroutine says of the channels. -/
def WatcherPC.Follows : WatcherPC → Subscription → Prop
  | .translating event, sub => ∃ earlier, sub.received = earlier ++ [event]
  | .receiving .errors, sub => Drained sub
  | .reporting _, sub => Spent sub
  | .writing _ _ .errors, sub => Spent sub
  | .finishing, sub => Spent sub
  | .ended, sub => Spent sub
  | _, _ => True

/-- Nothing was taken from the channels, and nothing was placed in closed ones. -/
structure Untouched (before after : Subscription) : Prop where
  received : after.received = before.received
  closed : before.registered = false →
    after.registered = false ∧ after.events.buffer = before.events.buffer ∧
      after.errors.buffer = before.errors.buffer

namespace Untouched

variable {before after : Subscription} (sub : Subscription)

theorem refl : Untouched sub sub :=
  ⟨rfl, fun unregistered => ⟨unregistered, rfl, rfl⟩⟩

theorem drained (untouched : Untouched before after) (drained : Drained before) :
    Drained after := by
  obtain ⟨unregistered, events, _⟩ := untouched.closed drained.2
  exact ⟨events.trans drained.1, unregistered⟩

theorem spent (untouched : Untouched before after) (spent : Spent before) :
    Spent after := by
  obtain ⟨_, _, errors⟩ := untouched.closed spent.1.2
  exact ⟨untouched.drained spent.1, errors.trans spent.2⟩

theorem follows {pc : WatcherPC} (untouched : Untouched before after)
    (follows : pc.Follows before) : pc.Follows after := by
  cases pc with
  | receiving loop =>
    cases loop with
    | events => trivial
    | errors => exact untouched.drained follows
  | translating =>
    obtain ⟨earlier, received⟩ := follows
    exact ⟨earlier, untouched.received.trans received⟩
  | writing _ _ loop =>
    cases loop with
    | events => trivial
    | errors => exact untouched.spent follows
  | reporting | finishing | ended => exact untouched.spent follows
  | _ => trivial

theorem offer (lagged : Cause) (terminal : Bool) (event : Debug.Event) (sub : Subscription) :
    Untouched sub (sub.offer lagged terminal event) := by
  constructor
  · unfold Subscriber.offer closeWatcher
    cases sub.registered <;> cases terminal <;> cases sub.closed <;>
      cases sub.events.isFull <;> rfl
  · intro unregistered
    rw [offer_unregistered lagged terminal event unregistered]
    exact ⟨unregistered, rfl, rfl⟩

theorem cancel : Untouched sub sub.cancel := by
  constructor
  · unfold Subscriber.cancel release closeWatcher
    cases sub.cancelled <;> cases sub.registered <;>
      cases sub.closed <;> rfl
  · intro unregistered
    unfold Subscriber.cancel release
    cases sub.cancelled <;> simp [unregistered]

end Untouched

/-- A launch was accepted and its handler has not returned. -/
def RequestPC.preparing : RequestPC → Bool
  | .announcing | .arming => true
  | _ => false

/-- The request goroutine serves the client: it is neither in the launch nor in the
cleanup. -/
def RequestPC.serving : RequestPC → Bool
  | .idle | .handling _ _ | .resuming _ _ | .expanding _ _ | .inspecting _ _
  | .allocating _ _ _ _ => true
  | .announcing | .arming | .cleaning _ _ _ | .ended _ => false

/-- The watch goroutine attends to a debug session through a subscription of it. -/
structure Attends (pc : WatcherPC) (dbg : Debug.SessionMachine)
    (sub : Subscription) : Prop where
  session : Debug.WatchInvariant dbg
  found : dbg.session.watchers 0 = some sub
  concludes : sub.Concludes Debug.Event.terminal
  follows : pc.Follows sub

def takes : Debug.SessionAction → Bool
  | .readEvent _ | .readError _ => true
  | _ => false

namespace Attends

variable {pc : WatcherPC} {dbg next : Debug.SessionMachine} {event : Debug.Event} {err : Cause}
  {sub : Subscription}

theorem launched (session : LaunchedSession) :
    ∃ sub, Attends .unstarted session.debugger sub ∧
      sub.placed = [] ∧ sub.registered = true := by
  have stepped : (Debug.SessionMachine.init session.id session.runtime).step
      (.subscribe 0) = some session.debugger := rfl
  refine ⟨live Debug.watcherBufferSize
    (Debug.Session.newSession session.id session.runtime).lastEvent, ⟨?_, rfl, ?_, ?_⟩,
    rfl, rfl⟩
  · exact (Debug.watchInvariant_init session.id session.runtime).step stepped
  · exact concludes_of_placed_nil rfl
  · trivial

section

variable {action : Debug.SessionAction} {later : WatcherPC}
  (attends : Attends pc dbg sub)
include attends

theorem call (stepped : dbg.step action = some next) (unread : takes action = false) :
    ∃ after, Attends pc next after ∧ Untouched sub after := by
  have watches := attends.session.watched 0 sub attends.found
  obtain ⟨after, foundAfter, changed⟩ :=
    attends.session.watcher_next (Debug.Effect.of_step stepped) attends.found
  refine ⟨after, ?_⟩
  rcases changed with ⟨publishes, rfl⟩ | ⟨_, rfl | ⟨op, allowed, ⟨target, reads⟩, rfl⟩⟩
  · have untouched := Untouched.offer .debugWatcherLagged next.session.state.terminal
      next.session.lastEvent sub
    refine ⟨⟨attends.session.step stepped, foundAfter, ?_,
      untouched.follows attends.follows⟩, untouched⟩
    have terminal : next.session.lastEvent.terminal = next.session.state.terminal := by
      rw [publishes.lastEvent]
      rfl
    rw [← terminal]
    exact attends.concludes.offer watches.tracks next.session.lastEvent
  · exact ⟨⟨attends.session.step stepped, foundAfter, attends.concludes,
      attends.follows⟩, Untouched.refl after⟩
  · have concludes := attends.concludes.reader allowed watches.tracks.closedIff
      watches.cancelled
    cases action with
    | unsubscribe =>
      cases reads
      have untouched := Untouched.cancel sub
      exact ⟨⟨attends.session.step stepped, foundAfter, concludes,
        untouched.follows attends.follows⟩, untouched⟩
    | readEvent | readError => cases unread
    | _ => cases reads

theorem turn (follows : later.Follows sub) : Attends later dbg sub :=
  { attends with follows := follows }

theorem receive {rest : List Debug.Event} (buffered : sub.events.buffer = event :: rest)
    (stepped : dbg.step (.readEvent 0) = some next) :
    Attends (.translating event) next sub.readEvent := by
  have watches := attends.session.watched 0 sub attends.found
  refine ⟨attends.session.step stepped, ?_, ?_, ?_⟩
  · cases stepped
    simp [Debug.SessionMachine.watch, Hub.modify, attends.found]
  · exact attends.concludes.reader .readEvent watches.tracks.closedIff watches.cancelled
  · refine ⟨sub.received, ?_⟩
    simp [Subscriber.readEvent, buffered]

end

theorem spent (attends : Attends (.translating event) dbg sub)
    (ended : event.terminal = true) : Spent sub := by
  obtain ⟨earlier, received⟩ := attends.follows
  have placed : sub.placed = earlier ++ event :: sub.events.buffer := by
    simp [Subscriber.placed, received]
  obtain ⟨empty, unregistered, silent⟩ := attends.concludes _ _ _ placed ended
  exact ⟨⟨empty, unregistered⟩, (List.append_eq_nil_iff.mp silent).2⟩

theorem errors_of_reported {rest : List Cause} (attends : Attends pc dbg sub)
    (buffered : sub.errors.buffer = err :: rest) : rest = [] := by
  have tracks := (attends.session.watched 0 sub attends.found).tracks
  have counted : sub.reported.length ≤ 1 := by
    cases registered : sub.registered with
    | true => simp [tracks.noErrorYet registered]
    | false =>
      have closed : sub.closed = true := by
        rw [tracks.closedIff, registered]
        rfl
      rcases tracks.cause closed with lagged | ⟨silent, _⟩
      · simp [lagged]
      · simp [silent]
  rw [reported, buffered] at counted
  cases rest with
  | nil => rfl
  | cons =>
    simp only [List.length_append, List.length_cons] at counted
    omega

theorem receiveError {rest : List Cause} (attends : Attends (.receiving .errors) dbg sub)
    (buffered : sub.errors.buffer = err :: rest) (stepped : dbg.step (.readError 0) = some next) :
    Attends (.reporting err) next sub.readError := by
  have watches := attends.session.watched 0 sub attends.found
  have last := attends.errors_of_reported buffered
  subst last
  obtain ⟨_, registered, _, events⟩ := readError_frame sub
  have drained : Drained sub := attends.follows
  refine ⟨attends.session.step stepped, ?_, ?_, ⟨?_, ?_⟩, ?_⟩
  · cases stepped
    simp [Debug.SessionMachine.watch, Hub.modify, attends.found]
  · exact attends.concludes.reader .readError watches.tracks.closedIff watches.cancelled
  · rw [events]
    exact drained.1
  · exact registered.trans drained.2
  · simp [Subscriber.readError, buffered]

end Attends

namespace Machine

inductive DebuggerMove (m next : Machine) : Prop
  | rest (same : next.debugger = m.debugger)
  | launch {session : LaunchedSession} (fresh : m.server.launched = false)
      (begun : next.debugger = some session.debugger)
  | call {action : Debug.SessionAction} {dbg after : Debug.SessionMachine}
      (known : m.debugger = some dbg) (reached : next.debugger = some after)
      (stepped : dbg.step action = some after) (unread : takes action = false)
      (cancels : action.reader ≠ none →
        next.request.serving = false ∧ next.request.preparing = false)
  | receive {sub} {event : Debug.Event} {rest} {dbg after : Debug.SessionMachine}
      (known : m.debugger = some dbg) (reached : next.debugger = some after)
      (found : dbg.session.watchers 0 = some sub)
      (buffered : sub.events.buffer = event :: rest)
      (stepped : dbg.step (.readEvent 0) = some after)
  | receiveError {sub} {err : Cause} {rest} {dbg after : Debug.SessionMachine}
      (known : m.debugger = some dbg) (reached : next.debugger = some after)
      (found : dbg.session.watchers 0 = some sub)
      (buffered : sub.errors.buffer = err :: rest)
      (stepped : dbg.step (.readError 0) = some after)

variable {locked : Bool} {result : RunEnd} {pc : CleanupPC} {host : Host} {answers : Answers}

section Moves

variable {m next : Machine} {action : Action}

theorem CleanupEffect.moves (effect : CleanupEffect m locked result pc next) :
    DebuggerMove m next := by
  cases effect with
  | @call _ action _ dbg after known called stepped =>
    refine .call known rfl stepped ?_ fun _ => ⟨rfl, rfl⟩
    rcases called with called | called | called
    all_goals
      cases called
      rfl
  | _ =>
    exact .rest rfl

theorem RequestEffect.moves (effect : RequestEffect host answers m next) : DebuggerMove m next := by
  cases effect with
  | launch _ fresh => exact .launch fresh rfl
  | start _ _ known _ _ _ stepped
  | startUnarmed _ _ known _ _ _ stepped
  | requestResume _ _ _ known stepped
  | resumeRefused _ known _ _ stepped
  | resume _ known _ stepped =>
    exact .call known rfl stepped rfl fun reads => absurd rfl reads
  | @terminate _ _ _ dbg _ _ _ _ known stepped =>
    rcases stepped with rfl | rfl
    · exact .rest known.symm
    · exact @DebuggerMove.call _ _ (.terminateExecution []) dbg _ known rfl rfl rfl
        fun reads => absurd rfl reads
  | cleanup _ effect => exact effect.moves
  | _ => exact .rest rfl

theorem WatchEffect.moves (effect : WatchEffect m next) :
    DebuggerMove m next := by
  cases effect with
  | receive _ known found buffered stepped =>
    exact .receive known rfl found buffered stepped
  | receiveError _ known found buffered stepped =>
    exact .receiveError known rfl found buffered stepped
  | continueEntry _ known stepped
  | commitRefused _ known _ stepped
  | commitEntry _ known _ stepped =>
    exact .call known rfl stepped rfl fun reads => absurd rfl reads
  | _ => exact .rest rfl

theorem Effect.moves (effect : Effect host m action next) :
    DebuggerMove m next := by
  cases effect with
  | read | stopReading => exact .rest rfl
  | handle effect => exact RequestEffect.moves effect
  | watch effect => exact effect.moves
  | @debugger call dbg after known alone stepped =>
    cases call with
    | commandReturns | terminate | close =>
      exact .call known rfl stepped rfl fun reads => absurd rfl reads
    | _ => cases alone

end Moves

structure Attached (m : Machine) : Prop where
  unlaunched : m.server.launched = false →
    m.debugger = none ∧ m.watcher = .unstarted
  launched : m.server.launched = true → m.debugger ≠ none
  preparing : m.request.preparing = true → m.server.launched = true
  session : ∀ dbg, m.debugger = some dbg →
    ∃ sub, Attends m.watcher dbg sub

theorem attached_new : Attached .new where
  unlaunched := fun _ => ⟨rfl, rfl⟩
  launched := by
    intro launched
    cases launched
  preparing := by
    intro preparing
    cases preparing
  session := by
    intro dbg known
    cases known

namespace Attached

variable {m next : Machine} {action : Action}

variable {dbg after : Debug.SessionMachine}

section

variable (attached : Attached m)
include attached

theorem launched_of_known (known : m.debugger = some dbg) : m.server.launched = true := by
  by_contra unlaunched
  have none_ := (attached.unlaunched (by simpa using unlaunched)).1
  rw [known] at none_
  cases none_

section

variable (launched : next.server.launched = m.server.launched)
  (req : next.request.preparing = false ∨ next.request = m.request)
include launched req

theorem prepared :
    next.request.preparing = true → next.server.launched = true := by
  intro preparing
  rcases req with finished | same
  · rw [finished] at preparing
    cases preparing
  · rw [same] at preparing
    exact launched.trans (attached.preparing preparing)

theorem rest
    (dbg : next.debugger = m.debugger) (watcher : next.watcher = m.watcher) : Attached next := by
  have prepared := attached.prepared launched req
  obtain ⟨unlaunched, known, _, session⟩ := attached
  refine ⟨?_, ?_, prepared, ?_⟩
  · rw [launched, dbg, watcher]
    exact unlaunched
  · rw [launched, dbg]
    exact known
  · rw [dbg, watcher]
    exact session

theorem call {action : Debug.SessionAction} (known : m.debugger = some dbg)
    (reached : next.debugger = some after) (stepped : dbg.step action = some after)
    (unread : takes action = false) (follows : ∀ sub, m.watcher.Follows sub →
      next.watcher.Follows sub) : Attached next := by
  have isLaunched := attached.launched_of_known known
  refine ⟨?_, ?_, attached.prepared launched req, ?_⟩
  · intro unlaunched
    rw [launched, isLaunched] at unlaunched
    cases unlaunched
  · intro _ none_
    rw [reached] at none_
    cases none_
  · intro other same
    cases reached.symm.trans same
    obtain ⟨sub, attends⟩ := attached.session dbg known
    obtain ⟨later, attendsLater, _⟩ := attends.call stepped unread
    exact ⟨later, attendsLater.turn (follows later attendsLater.follows)⟩

theorem watch (known : m.debugger = some dbg) (reached : next.debugger = some after)
    (attends : ∀ sub, Attends m.watcher dbg sub →
      ∃ later, Attends next.watcher after later) : Attached next := by
  have isLaunched := attached.launched_of_known known
  refine ⟨?_, ?_, attached.prepared launched req, ?_⟩
  · intro unlaunched
    rw [launched, isLaunched] at unlaunched
    cases unlaunched
  · intro _ none_
    rw [reached] at none_
    cases none_
  · intro other same
    cases reached.symm.trans same
    obtain ⟨sub, held⟩ := attached.session dbg known
    exact attends sub held

end

theorem known_of_started (started : m.watcher ≠ .unstarted) :
    ∃ dbg, m.debugger = some dbg := by
  cases known : m.debugger with
  | some dbg => exact ⟨dbg, rfl⟩
  | none =>
    exfalso
    cases launched : m.server.launched with
    | false => exact started (attached.unlaunched launched).2
    | true => exact attached.launched launched known

theorem turn (launched : next.server.launched = m.server.launched)
    (req : next.request.preparing = false ∨ next.request = m.request)
    (same : next.debugger = m.debugger) (started : m.watcher ≠ .unstarted)
    (follows : ∀ sub, m.watcher.Follows sub →
      next.watcher.Follows sub) : Attached next := by
  obtain ⟨dbg, known⟩ := attached.known_of_started started
  refine attached.watch launched req known (same.trans known) ?_
  intro sub attends
  exact ⟨sub, attends.turn (follows sub attends.follows)⟩

theorem cleanup (effect : CleanupEffect m locked result pc next) :
    Attached next := by
  cases effect with
  | @call _ call _ _ _ known called stepped =>
    have unread : takes call = false := by
      rcases called with called | called | called
      all_goals
        cases called
        rfl
    exact attached.call rfl (.inl rfl) known rfl stepped unread fun _ follows => follows
  | _ =>
    exact attached.rest rfl (.inl rfl) rfl rfl

theorem request (effect : RequestEffect host answers m next) : Attached next := by
  cases effect with
  | answer _ _ same =>
    exact attached.rest same.launched (.inl rfl) rfl rfl
  | replace _ _ _ _ committed =>
    obtain ⟨_, rfl⟩ := Server.commitBreakpoints_ok committed
    exact attached.rest rfl (.inl rfl) rfl rfl
  | @launch _ session _ fresh =>
    obtain ⟨_, unstarted⟩ := attached.unlaunched fresh
    refine ⟨?_, ?_, fun _ => rfl, ?_⟩
    · nofun
    · nofun
    intro dbg known
    cases known
    obtain ⟨sub, attends, _, _⟩ := Attends.launched session
    refine ⟨sub, ?_⟩
    rw [unstarted]
    exact attends
  | announce at_ =>
    have launched := attached.preparing (by rw [at_]; rfl)
    exact ⟨attached.unlaunched, attached.launched, fun _ => launched, attached.session⟩
  | arm at_ =>
    have launched := attached.preparing (by rw [at_]; rfl)
    refine ⟨?_, attached.launched, fun _ => launched, ?_⟩
    · intro unlaunched
      exact absurd (unlaunched.symm.trans launched) (by simp)
    · intro dbg known
      obtain ⟨sub, attends⟩ := attached.session dbg known
      exact ⟨sub, attends.turn trivial⟩
  | @start _ _ _ server _ _ known _ _ _ stepped armed =>
    have launched : server.launched = m.server.launched := by
      unfold Server.startAccepted at armed
      split at armed
      · cases armed
      · cases armed
        rfl
    exact attached.call launched (.inl rfl) known rfl stepped rfl fun _ follows => follows
  | startUnarmed _ _ known _ _ _ stepped
  | requestResume _ _ _ known stepped
  | resumeRefused _ known _ _ stepped | resume _ known _ stepped =>
    exact attached.call rfl (.inl rfl) known rfl stepped rfl fun _ follows => follows
  | misanswered | overflow | allocate => exact attached.rest rfl (.inl rfl) rfl rfl
  | @terminate _ _ _ dbg _ server _ _ known stepped server_ =>
    have launched : server.launched = m.server.launched := by
      rcases server_ with rfl | rfl <;> rfl
    rcases stepped with rfl | rfl
    · exact attached.rest launched (.inl rfl) known.symm rfl
    have stepped : dbg.step (.terminateExecution []) =
        some dbg.requestTermination := rfl
    exact attached.call launched (.inl rfl) known rfl stepped rfl fun _ follows => follows
  | lookUp _ _ goes =>
    rcases goes with ⟨reference, rfl⟩ | ⟨inspection, rfl⟩ <;>
      exact attached.rest rfl (.inl rfl) rfl rfl
  | cleanup _ effect => exact attached.cleanup effect
  | _ =>
    exact attached.rest rfl (.inl rfl) rfl rfl

theorem watched (effect : WatchEffect m next) :
    Attached next := by
  have started : ∀ pc, m.watcher = pc → pc ≠ .unstarted →
      m.watcher ≠ .unstarted := by
    intro pc at_ different same
    exact different (at_.symm.trans same)
  cases effect with
  | receive _ known found buffered stepped =>
    refine attached.watch rfl (.inr rfl) known rfl ?_
    intro other attends
    cases found.symm.trans attends.found
    exact ⟨_, attends.receive buffered stepped⟩
  | @eventsEnd sub _ _ known found empty closed =>
    refine attached.watch rfl (.inr rfl) known known ?_
    intro other attends
    cases found.symm.trans attends.found
    have closedIff :=
      (attends.session.watched 0 sub attends.found).tracks.closedIff
    exact ⟨sub, attends.turn ⟨empty, by simpa [closed] using closedIff⟩⟩
  | receiveError at_ known found buffered stepped =>
    refine attached.watch rfl (.inr rfl) known rfl ?_
    intro other attends
    cases found.symm.trans attends.found
    rw [at_] at attends
    exact ⟨_, attends.receiveError buffered stepped⟩
  | @errorsEnd sub _ at_ known found empty =>
    refine attached.watch rfl (.inr rfl) known known ?_
    intro other attends
    cases found.symm.trans attends.found
    rw [at_] at attends
    exact ⟨sub, attends.turn ⟨attends.follows, empty⟩⟩
  | @translate translation _ _ at_ _ effect =>
    refine attached.turn effect.sameLaunch.launched (.inr rfl) rfl (started _ at_ nofun) ?_
    intro sub _
    cases translation with
    | write | resume => trivial
  | continueRefused at_ =>
    exact attached.turn rfl (.inr rfl) rfl (started _ at_ nofun) fun _ _ => trivial
  | continueEntry _ known stepped | commitRefused _ known _ stepped
  | commitEntry _ known _ stepped =>
    exact attached.call rfl (.inr rfl) known rfl stepped rfl fun _ _ => trivial
  | @write _ _ _ loop at_ =>
    refine attached.turn rfl (.inr rfl) rfl (started _ at_ nofun) ?_
    intro sub follows
    rw [at_] at follows
    cases loop with
    | events => trivial
    | errors => exact follows
  | @leave _ loop at_ =>
    refine attached.turn rfl (.inr rfl) rfl (started _ at_ nofun) ?_
    intro sub follows
    rw [at_] at follows
    cases loop with
    | events => trivial
    | errors => exact follows.1
  | report at_ | finish at_ =>
    refine attached.turn rfl (.inr rfl) rfl (started _ at_ nofun) ?_
    intro sub follows
    rw [at_] at follows
    exact follows

theorem step (effect : Effect host m action next) :
    Attached next := by
  cases effect with
  | read | stopReading => exact attached.rest rfl (.inl rfl) rfl rfl
  | handle effect => exact attached.request effect
  | watch effect => exact attached.watched effect
  | @debugger call _ _ known alone stepped =>
    have unread : takes call = false := by
      cases call with
      | readEvent | readError => cases alone
      | _ => rfl
    exact attached.call rfl (.inr rfl) known rfl stepped unread fun _ follows => follows

end

end Attached

end Machine

end Ferretd.Dap

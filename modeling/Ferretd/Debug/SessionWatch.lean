import Ferretd.Debug.SessionStates

/-!
# Watching a debug session

A subscriber is offered every event published since it subscribed, until its own cancel, a
terminal event, or a publication that finds its buffer full.
-/

namespace Ferretd.Debug

open Library Library.Broadcast Subscriber
open Library.Broadcast.Subscriber (ReaderAction)

/-- What holds of a subscriber of a debug session. -/
structure Watches (s : Session)
    (watcher : Subscriber Event Cause) : Prop where
  tracks :
    watcher.Tracks Event.sequence Event.terminal .debugWatcherLagged
      watcherBufferSize s.sequence
  bounded : watcher.Bounded
  cancelled : watcher.cancelled = true → watcher.registered = false
  ended : s.state.terminal = true → watcher.registered = false

def AllWatch (s : Session) : Prop :=
  ∀ handle watcher, s.watchers handle = some watcher → Watches s watcher

variable {s : Session} {op : Subscriber Event Cause → Subscriber Event Cause}
  {m next : SessionMachine} {action : SessionAction} {handle : Nat} {runtime : RuntimeView}

namespace Watches

section

variable {other after : Session} {watcher : Subscriber Event Cause}
  (watches : Watches s watcher)
include watches

theorem congr (sequence : other.sequence = s.sequence) (state : other.state = s.state) :
    Watches other watcher := by
  obtain ⟨tracks, bounded, cancelled, ended⟩ := watches
  exact ⟨sequence ▸ tracks, bounded, cancelled, state ▸ ended⟩

theorem reader (action : ReaderAction op) : Watches s (op watcher) := by
  cases action with
  | cancel =>
    obtain ⟨_, registered, _, _, _⟩ :=
      cancel_frame watcher watches.tracks.closedIff watches.cancelled
    exact ⟨watches.tracks.cancel, watches.bounded.cancel, fun _ => registered,
      fun _ => registered⟩
  | readEvent =>
    obtain ⟨_, registered, cancelled, _, _⟩ := readEvent_frame watcher
    refine ⟨watches.tracks.readEvent, watches.bounded.readEvent, ?_, ?_⟩
    · rw [registered, cancelled]
      exact watches.cancelled
    · rw [registered]
      exact watches.ended
  | readError =>
    obtain ⟨_, registered, cancelled, _⟩ := readError_frame watcher
    refine ⟨watches.tracks.readError, watches.bounded.readError, ?_, ?_⟩
    · rw [registered, cancelled]
      exact watches.cancelled
    · rw [registered]
      exact watches.ended

theorem publish (publishes : s.Publishes after) :
    Watches after (watcher.offer .debugWatcherLagged after.state.terminal after.lastEvent) := by
  have next : after.lastEvent.sequence = s.sequence + 1 := by
    rw [publishes.lastEvent]
  have terminal : after.lastEvent.terminal = after.state.terminal := by
    rw [publishes.lastEvent]
    rfl
  have tracks := watches.tracks.offer next
  rw [terminal, ← publishes.sequence] at tracks
  refine ⟨tracks, watches.bounded.offer _ _ _, ?_, ?_⟩
  · intro cancelled
    cases registered : watcher.registered with
    | false =>
      rw [offer_unregistered _ _ _ registered]
      exact registered
    | true =>
      have uncancelled : watcher.cancelled = false := by
        by_contra already
        have gone := watches.cancelled (by simpa using already)
        simp [registered] at gone
      rw [cancelled_offer, uncancelled] at cancelled
      cases cancelled
  · intro ended
    rw [ended]
    exact registered_offer_terminal _ _ watches.tracks.closedIff

end

end Watches

/-! ## The invariant -/

structure WatchInvariant (m : SessionMachine) : Prop where
  state : StateInvariant m
  watched : AllWatch m.session
  awaited :
    ∀ pc, m.closer = some pc → pc.awaited = true → m.session.state.terminal = true

/-- The subscriber that `subscribe` creates. -/
def Session.newSubscriber (s : Session) : Subscriber Event Cause :=
  if s.state.terminal then
    late s.lastEvent
  else
    live watcherBufferSize s.lastEvent

/-- What one step does to the subscriber under one handle. -/
inductive WatcherMove (m : SessionMachine) (action : SessionAction)
    (next : SessionMachine) :
    Option (Subscriber Event Cause) → Option (Subscriber Event Cause) → Prop
  | rest {watcher} (rests : m.session.Rests next.session) :
      WatcherMove m action next watcher watcher
  | publish {watcher} (publishes : m.session.Publishes next.session) :
      WatcherMove m action next watcher
        (watcher.map (offer .debugWatcherLagged next.session.state.terminal next.session.lastEvent))
  | reader {watcher} (rests : m.session.Rests next.session)
      {op : Subscriber Event Cause → Subscriber Event Cause}
      (allowed : ReaderAction op)
      (reads : ∃ handle, action.reader = some (handle, op)) :
      WatcherMove m action next watcher (watcher.map op)
  | release {watcher} (rests : m.session.Rests next.session)
      (owner : m.closer = some .releaseWatchers) :
      WatcherMove m action next watcher (watcher.map Subscriber.release)
  | subscribe (rests : m.session.Rests next.session) :
      WatcherMove m action next none (some m.session.newSubscriber)

theorem WatcherMove.of_publishes (publishes : m.session.Publishes next.session) (handle : Nat) :
    WatcherMove m action next (m.session.watchers handle)
      (next.session.watchers handle) := by
  rw [publishes.watchers]
  exact .publish publishes

theorem Effect.watcher (effect : Effect m action next) (handle : Nat) :
    WatcherMove m action next (m.session.watchers handle)
      (next.session.watchers handle) := by
  cases effect with
  | control => exact .rest ⟨rfl, rfl, rfl, rfl, rfl, rfl, rfl⟩
  | begin accepted =>
    exact .of_publishes (Session.startCommand_publishes (.inl rfl) accepted) handle
  | resume _ accepted =>
    exact .of_publishes (Session.startCommand_publishes (.inr rfl) accepted) handle
  | @returns _ command event err =>
    by_cases running : m.session.state = .running
    · exact .of_publishes (Session.runCommand_publishes running event err _) handle
    have same := Session.runCommand_of_not_running running event err command.runtimeErrorResume
    dsimp only
    rw [same]
    exact .rest (Session.rests_refl _)
  | request =>
    have rests := Session.rests_requestTermination m.session
    have watchers := Session.watchers_requestTermination m.session
    show WatcherMove m _ _ _ (m.session.requestTermination.2.watchers handle)
    rw [watchers]
    exact .rest rests
  | terminate =>
    cases ended : m.session.state.terminal with
    | true =>
      have same := Session.terminate_of_terminal ended
      dsimp only
      rw [same]
      exact .rest (Session.rests_refl _)
    | false => exact .of_publishes (Session.terminate_publishes ended) handle
  | @subscribe added new =>
    by_cases same : handle = added
    · subst same
      simp only [Session.subscribe, Hub.insert, Function.update_self, new]
      exact .subscribe ⟨rfl, rfl, rfl, rfl, rfl, rfl, rfl⟩
    · simp only [Session.subscribe, Hub.insert, Function.update_of_ne same]
      exact .rest ⟨rfl, rfl, rfl, rfl, rfl, rfl, rfl⟩
  | @reader _ target _ allowed reads =>
    by_cases same : handle = target
    · subst same
      simp only [SessionMachine.watch, Hub.modify, Function.update_self]
      refine .reader ?_ allowed ⟨handle, reads⟩
      exact ⟨rfl, rfl, rfl, rfl, rfl, rfl, rfl⟩
    · simp only [SessionMachine.watch, Hub.modify, Function.update_of_ne same]
      exact .rest ⟨rfl, rfl, rfl, rfl, rfl, rfl, rfl⟩
  | release owner =>
    exact .release ⟨rfl, rfl, rfl, rfl, rfl, rfl, rfl⟩ owner

namespace WatchInvariant

section

variable (invariant : WatchInvariant m)
include invariant

theorem newSubscriber : Watches m.session m.session.newSubscriber := by
  have published := invariant.state.lastEvent
  have sequence : m.session.lastEvent.sequence = m.session.sequence := by
    rw [published]
  unfold Session.newSubscriber
  split
  next ended =>
    have terminal : m.session.lastEvent.terminal = true := by
      rw [published]
      exact ended
    exact ⟨tracks_late sequence terminal, Nat.le_refl 0, fun _ => rfl, fun _ => rfl⟩
  next opened =>
    refine ⟨tracks_live sequence, Nat.zero_le _, ?_, ?_⟩
    · nofun
    · intro ended
      exact absurd ended opened

theorem release_eq {watcher : Subscriber Event Cause} (owner : m.closer = some .releaseWatchers)
    (found : m.session.watchers handle = some watcher) :
    watcher.release = watcher := by
  have ended := invariant.awaited _ owner rfl
  have unregistered := (invariant.watched handle watcher found).ended ended
  simp [Subscriber.release, unregistered]

section

variable {pc : ClosePC} (effect : Effect m action next)
include effect

theorem watcher_next {watcher : Subscriber Event Cause}
    (found : m.session.watchers handle = some watcher) :
    ∃ after, next.session.watchers handle = some after ∧
      (m.session.Publishes next.session ∧
          after = watcher.offer .debugWatcherLagged next.session.state.terminal
            next.session.lastEvent ∨
        m.session.Rests next.session ∧
          (after = watcher ∨
            ∃ op, ReaderAction op ∧
              (∃ target, action.reader = some (target, op)) ∧
              after = op watcher)) := by
  have move := effect.watcher handle
  have released := fun owner => invariant.release_eq owner found
  rw [found] at move
  generalize next.session.watchers handle = reached at move
  cases move with
  | rest rests => exact ⟨watcher, rfl, .inr ⟨rests, .inl rfl⟩⟩
  | publish publishes => exact ⟨_, rfl, .inl ⟨publishes, rfl⟩⟩
  | reader rests allowed reads =>
    exact ⟨_, rfl, .inr ⟨rests, .inr ⟨_, allowed, reads, rfl⟩⟩⟩
  | release rests owner => exact ⟨_, rfl, .inr ⟨rests, .inl (released owner)⟩⟩

theorem watched_next : AllWatch next.session := by
  intro handle watcher found
  cases before : m.session.watchers handle with
  | none =>
    have move := effect.watcher handle
    rw [found, before] at move
    cases move with
    | subscribe rests => exact invariant.newSubscriber.congr rests.sequence rests.state
  | some previous =>
    have watches := invariant.watched handle previous before
    obtain ⟨after, foundAfter, changed⟩ := invariant.watcher_next effect before
    cases foundAfter.symm.trans found
    rcases changed with ⟨publishes, rfl⟩ | ⟨rests, rfl | ⟨op, allowed, _, rfl⟩⟩
    · exact watches.publish publishes
    · exact watches.congr rests.sequence rests.state
    · exact (watches.reader allowed).congr rests.sequence rests.state

theorem awaited_next (owner : next.closer = some pc) (awaited : pc.awaited = true) :
    m.session.state.terminal = true := by
  have known : m.session.terminalDone ≠ 0 ∨
      ∃ previous, m.closer = some previous ∧ previous.awaited = true := by
    cases effect with
    | control awaits => exact awaits pc owner awaited
    | request early => exact .inr ⟨pc, early pc owner awaited, awaited⟩
    | release previous => exact .inr ⟨_, previous, rfl⟩
    | _ =>
      exact .inr ⟨pc, owner, awaited⟩
  rcases known with done | ⟨previous, ownerBefore, awaitedBefore⟩
  · by_contra opened
    apply done
    rw [invariant.state.terminalDone]
    simp [opened]
  · exact invariant.awaited previous ownerBefore awaitedBefore

end

theorem step (taken : m.step action = some next) : WatchInvariant next := by
  have effect := Effect.of_step taken
  refine ⟨invariant.state.step taken, invariant.watched_next effect, ?_⟩
  intro pc owner awaited
  have ended := invariant.awaited_next effect owner awaited
  rcases effect.session with rests | publishes
  · rw [rests.state]
    exact ended
  · have opened := publishes.opened
    simp [ended] at opened

end

end WatchInvariant

theorem watchInvariant_init (id : Nat) (runtime : RuntimeView) :
    WatchInvariant (.init id runtime) := by
  refine ⟨stateInvariant_init id runtime, ?_, ?_⟩
  · intro handle watcher found
    cases found
  · intro pc owner
    cases owner

theorem watchInvariant_reaches {id : Nat}
    (reached : Reaches SessionMachine.step (.init id runtime) m) :
    WatchInvariant m :=
  reached.invariant (watchInvariant_init id runtime)
    fun _ _ _ invariant _ taken => invariant.step taken

/-! ## Delivery -/

theorem Watches.reported_reader {watcher : Subscriber Event Cause}
    (watches : Watches s watcher) (allowed : ReaderAction op) :
    (op watcher).reported = watcher.reported := by
  cases allowed with
  | cancel =>
    obtain ⟨_, _, _, reported, _⟩ :=
      cancel_frame watcher watches.tracks.closedIff watches.cancelled
    exact reported
  | readEvent =>
    obtain ⟨_, _, _, reported, _⟩ := readEvent_frame watcher
    exact reported
  | readError => exact reported_readError watcher

namespace WatchInvariant

section

variable {watcher after : Subscriber Event Cause} (invariant : WatchInvariant m)
  (effect : Effect m action next) (found : m.session.watchers handle = some watcher)
include invariant effect found

theorem full_of_reported (foundNext : next.session.watchers handle = some after)
    (reports : after.reported ≠ watcher.reported) :
    next.session.sequence = m.session.sequence + 1 ∧
      watcher.events.buffer.length = watcherBufferSize := by
  have watches := invariant.watched handle watcher found
  obtain ⟨reached, foundReached, changed⟩ := invariant.watcher_next effect found
  cases foundReached.symm.trans foundNext
  rcases changed with ⟨publishes, rfl⟩ | ⟨_, rfl | ⟨op, allowed, _, rfl⟩⟩
  · obtain ⟨registered, full⟩ := isFull_of_offer_reports reports
    have capacity := watches.tracks.capacityEq registered
    have bounded := watches.bounded
    simp only [Subscriber.Bounded, capacity] at bounded
    simp only [Chan.isFull, capacity, decide_eq_true_eq] at full
    exact ⟨publishes.sequence, Nat.le_antisymm bounded full⟩
  · exact absurd rfl reports
  · exact absurd (watches.reported_reader allowed) reports

theorem closed_next (unregistered : watcher.registered = false) :
    ∃ after, next.session.watchers handle = some after ∧
      after.registered = false ∧ after.placed = watcher.placed ∧
      after.reported = watcher.reported := by
  have watches := invariant.watched handle watcher found
  obtain ⟨after, foundAfter, changed⟩ := invariant.watcher_next effect found
  refine ⟨after, foundAfter, ?_⟩
  rcases changed with ⟨_, rfl⟩ | ⟨_, rfl | ⟨op, allowed, _, rfl⟩⟩
  · rw [offer_unregistered _ _ _ unregistered]
    exact ⟨unregistered, rfl, rfl⟩
  · exact ⟨unregistered, rfl, rfl⟩
  refine ⟨?_, allowed.placed watcher, watches.reported_reader allowed⟩
  cases allowed with
  | cancel =>
    exact (cancel_frame watcher watches.tracks.closedIff watches.cancelled).2.1
  | readEvent => exact (readEvent_frame watcher).2.1.trans unregistered
  | readError => exact (readError_frame watcher).2.1.trans unregistered

end

theorem closed_run {watcher : Subscriber Event Cause} {later : SessionMachine}
    (invariant : WatchInvariant m) (found : m.session.watchers handle = some watcher)
    (unregistered : watcher.registered = false) (run : Reaches SessionMachine.step m later) :
    ∃ after, later.session.watchers handle = some after ∧
      after.registered = false ∧ after.placed = watcher.placed ∧
      after.reported = watcher.reported := by
  have both : WatchInvariant later ∧
      ∃ after, later.session.watchers handle = some after ∧
        after.registered = false ∧ after.placed = watcher.placed ∧
        after.reported = watcher.reported := by
    induction run with
    | start => exact ⟨invariant, watcher, found, unregistered, rfl, rfl⟩
    | next _ _ _ taken ih =>
      obtain ⟨held, before, foundBefore, closed, placed, reported⟩ :=
        ih
      obtain ⟨after, foundAfter, closedAfter, placedAfter, reportedAfter⟩ :=
        held.closed_next (Effect.of_step taken) foundBefore closed
      exact ⟨held.step taken, after, foundAfter, closedAfter,
        placedAfter.trans placed, reportedAfter.trans reported⟩
  exact both.2

end WatchInvariant

structure Delivery (m : SessionMachine) (handle : Nat)
    (watcher : Subscriber Event Cause) : Prop where
  consecutive :
    watcher.received.map Event.sequence =
      List.range' (watcher.current.sequence + 1) watcher.received.length
  closedOnce : watcher.events.closes = if watcher.closed then 1 else 0
  closedAtEnd :
    watcher.cancelled = true ∨ m.session.state.terminal = true → watcher.events.closes = 1
  lagged :
    watcher.events.closes = 1 → watcher.cancelled = false →
      watcher.current.terminal = false →
      (∀ event ∈ watcher.placed, event.terminal = false) →
        watcher.reported = [.debugWatcherLagged]
  onlyWhenFull :
    ∀ action next after, m.step action = some next →
      next.session.watchers handle = some after →
      after.reported ≠ watcher.reported →
        next.session.sequence = m.session.sequence + 1 ∧
          watcher.events.buffer.length = watcherBufferSize
  nothingLater :
    watcher.events.closes = 1 → ∀ later, Reaches SessionMachine.step m later →
      ∃ after, later.session.watchers handle = some after ∧
        after.placed = watcher.placed ∧ after.reported = watcher.reported ∧
        after.events.closes = 1

theorem WatchInvariant.delivery {watcher : Subscriber Event Cause} (invariant : WatchInvariant m)
    (found : m.session.watchers handle = some watcher) :
    Delivery m handle watcher := by
  have watches := invariant.watched handle watcher found
  have closes := watches.tracks.eventsCloses
  have closedIff := watches.tracks.closedIff
  have closed_of_closes : watcher.events.closes = 1 → watcher.closed = true := by
    intro once
    by_contra opened
    simp [once, opened] at closes
  refine ⟨watches.tracks.received_consecutive, closes, ?_, ?_, ?_, ?_⟩
  · intro ended
    have unregistered : watcher.registered = false := by
      rcases ended with cancelled | terminal
      · exact watches.cancelled cancelled
      · exact watches.ended terminal
    simpa [closedIff, unregistered] using closes
  · intro once uncancelled opened noTerminal
    rcases watches.tracks.cause (closed_of_closes once) with reported | ⟨_, cause⟩
    · exact reported
    rcases cause with cancelled | current | ⟨event, placed, terminal⟩
    · simp [uncancelled] at cancelled
    · simp [opened] at current
    · simp [noTerminal event placed] at terminal
  · intro action next after taken foundNext reports
    exact invariant.full_of_reported (Effect.of_step taken) found foundNext reports
  · intro once later run
    have unregistered : watcher.registered = false := by
      have closed := closed_of_closes once
      simpa [closed] using closedIff
    obtain ⟨after, foundAfter, closed, placed, reported⟩ :=
      invariant.closed_run found unregistered run
    have invariantLater : WatchInvariant later :=
      run.invariant invariant fun _ _ _ held _ taken => held.step taken
    have tracks := (invariantLater.watched handle after foundAfter).tracks
    refine ⟨after, foundAfter, placed, reported, ?_⟩
    have closesAfter := tracks.eventsCloses
    simpa [tracks.closedIff, closed] using closesAfter

end Ferretd.Debug

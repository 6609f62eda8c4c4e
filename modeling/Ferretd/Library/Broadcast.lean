import Mathlib.Data.List.Basic
import Mathlib.Logic.Function.Basic

/-!
# Bounded broadcast

One publisher hands numbered events to any number of subscribers and never waits for a
reader.  A subscriber whose event channel is full when the next event is published is
disconnected with a lag error, and a terminal event disconnects every subscriber that
received it.  `Tracks` is the invariant of one subscriber; `Hub.erase` keeps the
subscribers apart.
-/

namespace Library.Broadcast

open List Function

universe u v

/-! ## Channels -/

/-- A buffered channel.  `closes` counts the calls of `close`, so that closing a
channel twice is visible. -/
structure Chan (Item : Type u) where
  capacity : Nat
  buffer : List Item
  closes : Nat

namespace Chan

variable {Item : Type u}

def make (capacity : Nat) : Chan Item :=
  ⟨capacity, [], 0⟩

variable (channel : Chan Item)

def send (item : Item) : Chan Item :=
  { channel with buffer := channel.buffer ++ [item] }

def close : Chan Item :=
  { channel with closes := channel.closes + 1 }

def isFull : Bool :=
  decide (channel.capacity ≤ channel.buffer.length)

end Chan

section Subscribers

variable {Event : Type u} {Err : Type v}

/-- One subscriber.  `registered` says that the publisher still offers events to it,
`received` and `receivedErrors` are what its reader has taken from the channels. -/
structure Subscriber (Event : Type u) (Err : Type v) where
  current : Event
  events : Chan Event
  errors : Chan Err
  registered : Bool
  closed : Bool
  cancelled : Bool
  received : List Event
  receivedErrors : List Err

namespace Subscriber

/-- A subscriber of a publisher that goes on. -/
def live (capacity : Nat) (current : Event) : Subscriber Event Err where
  current := current
  events := Chan.make capacity
  errors := Chan.make 1
  registered := true
  closed := false
  cancelled := false
  received := []
  receivedErrors := []

/-- A subscriber of a publisher that has ended: both channels are closed at once
and it is not registered. -/
def late (current : Event) : Subscriber Event Err where
  current := current
  events := (Chan.make 0).close
  errors := (Chan.make 0).close
  registered := false
  closed := true
  cancelled := false
  received := []
  receivedErrors := []

section

variable (sub : Subscriber Event Err)

/-- Every event that was ever placed in the event channel, in order. -/
def placed : List Event :=
  sub.received ++ sub.events.buffer

/-- Every error that was ever placed in the error channel, in order. -/
def reported : List Err :=
  sub.receivedErrors ++ sub.errors.buffer

/-- Close both channels once, after an optional last error. -/
def closeWatcher (failure : Option Err) (sub : Subscriber Event Err) :
    Subscriber Event Err :=
  if sub.closed then
    sub
  else
    { sub with
      closed := true
      events := sub.events.close
      errors :=
        match failure with
        | none => sub.errors.close
        | some err => (sub.errors.send err).close
      registered := false }

/-- Offer one event without waiting. -/
def offer (lagged : Err) (terminal : Bool) (event : Event)
    (sub : Subscriber Event Err) : Subscriber Event Err :=
  if sub.registered then
    if sub.events.isFull then
      sub.closeWatcher (some lagged)
    else
      let delivered := { sub with events := sub.events.send event }
      if terminal then delivered.closeWatcher none else delivered
  else
    sub

/-- Close the channels of a subscriber that is still registered. -/
def release : Subscriber Event Err :=
  if sub.registered then sub.closeWatcher none else sub

/-- The subscriber's cancel function; only its first call does anything. -/
def cancel : Subscriber Event Err :=
  if sub.cancelled then
    sub
  else
    { sub with cancelled := true }.release

/-- Take the next event from the channel, if there is one. -/
def readEvent : Subscriber Event Err :=
  match sub.events.buffer with
  | [] => sub
  | event :: rest =>
    { sub with
      events := { sub.events with buffer := rest }
      received := sub.received ++ [event] }

/-- Take the next error from the channel, if there is one. -/
def readError : Subscriber Event Err :=
  match sub.errors.buffer with
  | [] => sub
  | err :: rest =>
    { sub with
      errors := { sub.errors with buffer := rest }
      receivedErrors := sub.receivedErrors ++ [err] }

end

/-! ## What the operations place and close -/

variable {op : Subscriber Event Err → Subscriber Event Err} {event : Event} (failure : Option Err)

@[simp]
theorem placed_closeWatcher (sub : Subscriber Event Err) :
    (sub.closeWatcher failure).placed = sub.placed := by
  unfold closeWatcher
  split <;> rfl

@[simp]
theorem current_closeWatcher (sub : Subscriber Event Err) :
    (sub.closeWatcher failure).current = sub.current := by
  unfold closeWatcher
  split <;> rfl

variable (sub : Subscriber Event Err)

@[simp]
theorem placed_release : sub.release.placed = sub.placed := by
  unfold release
  split
  · exact placed_closeWatcher none sub
  · rfl

@[simp]
theorem placed_cancel : sub.cancel.placed = sub.placed := by
  unfold cancel
  split
  · rfl
  · rw [placed_release]
    rfl

@[simp]
theorem placed_readEvent : sub.readEvent.placed = sub.placed := by
  unfold readEvent
  split
  · rfl
  next event rest bufferEq =>
    simp [placed, bufferEq]

@[simp]
theorem placed_readError : sub.readError.placed = sub.placed := by
  unfold readError
  split <;> rfl

@[simp]
theorem reported_readError : sub.readError.reported = sub.reported := by
  unfold readError
  split
  · rfl
  next err rest bufferEq =>
    simp [reported, bufferEq]

/-- Reading only moves what is waiting. -/
theorem readEvent_frame :
    sub.readEvent.current = sub.current ∧
      sub.readEvent.registered = sub.registered ∧
      sub.readEvent.cancelled = sub.cancelled ∧
      sub.readEvent.reported = sub.reported ∧
      sub.readEvent.events.capacity = sub.events.capacity := by
  unfold readEvent
  split <;> exact ⟨rfl, rfl, rfl, rfl, rfl⟩

theorem readError_frame :
    sub.readError.current = sub.current ∧
      sub.readError.registered = sub.registered ∧
      sub.readError.cancelled = sub.cancelled ∧
      sub.readError.events = sub.events := by
  unfold readError
  split <;> exact ⟨rfl, rfl, rfl, rfl⟩

theorem cancel_frame (closedIff : sub.closed = !sub.registered)
    (uncancelled : sub.cancelled = true → sub.registered = false) :
    sub.cancel.current = sub.current ∧
      sub.cancel.registered = false ∧
      sub.cancel.cancelled = true ∧
      sub.cancel.reported = sub.reported ∧
      sub.cancel.events.buffer = sub.events.buffer := by
  cases cancelled : sub.cancelled with
  | true => simp [cancel, cancelled, uncancelled cancelled]
  | false =>
    cases registered : sub.registered <;>
      simp [cancel, release, closeWatcher, cancelled, registered, closedIff, reported, Chan.close]

/-- Events placed in the channel never exceed its capacity. -/
def Bounded (sub : Subscriber Event Err) : Prop :=
  sub.events.buffer.length ≤ sub.events.capacity

theorem Bounded.closeWatcher {sub : Subscriber Event Err}
    (bounded : sub.Bounded) (failure : Option Err) :
    (sub.closeWatcher failure).Bounded := by
  unfold Subscriber.closeWatcher
  split <;> exact bounded

theorem Bounded.offer {sub : Subscriber Event Err} (bounded : sub.Bounded)
    (lagged : Err) (terminal : Bool) (event : Event) :
    (sub.offer lagged terminal event).Bounded := by
  unfold Subscriber.offer
  split
  · split
    · exact bounded.closeWatcher (some lagged)
    rename_i room
    have delivered : { sub with events := sub.events.send event }.Bounded := by
      simp only [Chan.isFull, decide_eq_true_eq, Nat.not_le] at room
      simp only [Bounded, Chan.send, length_append, length_singleton]
      exact room
    dsimp only
    split
    · exact delivered.closeWatcher none
    · exact delivered
  · exact bounded

theorem Bounded.cancel {sub : Subscriber Event Err} (bounded : sub.Bounded) :
    sub.cancel.Bounded := by
  unfold Subscriber.cancel release
  split
  · exact bounded
  have marked : { sub with cancelled := true }.Bounded := bounded
  split
  · exact marked.closeWatcher none
  · exact marked

theorem Bounded.readEvent {sub : Subscriber Event Err} (bounded : sub.Bounded) :
    sub.readEvent.Bounded := by
  unfold Subscriber.readEvent
  split
  · exact bounded
  next event rest bufferEq =>
    simp only [Bounded, bufferEq, length_cons] at bounded ⊢
    exact Nat.le_of_succ_le bounded

theorem Bounded.readError {sub : Subscriber Event Err} (bounded : sub.Bounded) :
    sub.readError.Bounded := by
  have events := (readError_frame sub).2.2.2
  simpa only [Bounded, events] using bounded

/-- The operations of a reader on its own subscription. -/
inductive ReaderAction :
    (Subscriber Event Err → Subscriber Event Err) → Prop
  | cancel : ReaderAction cancel
  | readEvent : ReaderAction readEvent
  | readError : ReaderAction readError

theorem ReaderAction.placed (allowed : ReaderAction op) (sub : Subscriber Event Err) :
    (op sub).placed = sub.placed := by
  cases allowed with
  | cancel => exact placed_cancel sub
  | readEvent => exact placed_readEvent sub
  | readError => exact placed_readError sub

variable (lagged : Err)

/-- An offer does nothing to a subscriber that has been closed. -/
theorem offer_unregistered (terminal : Bool) (event : Event)
    {sub : Subscriber Event Err} (unregistered : sub.registered = false) :
    sub.offer lagged terminal event = sub := by
  simp [offer, unregistered]

theorem cancelled_offer (terminal : Bool) (event : Event) (sub : Subscriber Event Err) :
    (sub.offer lagged terminal event).cancelled = sub.cancelled := by
  cases registered : sub.registered <;> cases terminal <;>
    cases closed : sub.closed <;> by_cases full : sub.events.isFull <;>
      simp [offer, registered, closed, full, closeWatcher]

/-! ## The invariant of one subscriber -/

/-- `Tracks sequence terminal lagged capacity last sub`: relative to a
publisher whose newest event has number `last`, the subscriber has been offered
every event since its first observation until it was closed. -/
structure Tracks (sequence : Event → Nat) (terminal : Event → Bool)
    (lagged : Err) (capacity last : Nat)
    (sub : Subscriber Event Err) : Prop where
  consecutive :
    sub.placed.map sequence =
      range' (sequence sub.current + 1) sub.placed.length
  behind : sequence sub.current + sub.placed.length ≤ last
  upToDate :
    sub.registered = true → sequence sub.current + sub.placed.length = last
  closedIff : sub.closed = !sub.registered
  eventsCloses : sub.events.closes = if sub.closed then 1 else 0
  errorsCloses : sub.errors.closes = if sub.closed then 1 else 0
  capacityEq : sub.registered = true → sub.events.capacity = capacity
  noErrorYet : sub.registered = true → sub.reported = []
  cause :
    sub.closed = true →
      sub.reported = [lagged] ∨
        sub.reported = [] ∧
          (sub.cancelled = true ∨ terminal sub.current = true ∨
            ∃ event ∈ sub.placed, terminal event = true)

section Tracks

variable {sequence : Event → Nat} {terminal : Event → Bool} {lagged : Err} {current : Event}
variable {capacity last : Nat} {sub : Subscriber Event Err}

theorem tracks_live (sequenceEq : sequence current = last) :
    (live capacity current : Subscriber Event Err).Tracks sequence terminal lagged
      capacity last where
  consecutive := rfl
  behind := by simp [live, placed, Chan.make, sequenceEq]
  upToDate := by simp [live, placed, Chan.make, sequenceEq]
  closedIff := rfl
  eventsCloses := rfl
  errorsCloses := rfl
  capacityEq := fun _ => rfl
  noErrorYet := fun _ => rfl
  cause := by simp [live]

theorem tracks_late (sequenceEq : sequence current = last) (ended : terminal current = true) :
    (late current : Subscriber Event Err).Tracks sequence terminal lagged capacity last where
  consecutive := rfl
  behind := by simp [late, placed, Chan.make, Chan.close, sequenceEq]
  upToDate := by simp [late]
  closedIff := rfl
  eventsCloses := rfl
  errorsCloses := rfl
  capacityEq := by simp [late]
  noErrorYet := by simp [late]
  cause := fun _ => .inr ⟨rfl, .inr (.inl ended)⟩

section

variable {later : Nat} (tracks : sub.Tracks sequence terminal lagged capacity last)
include tracks

/-- Closing a registered subscriber for a recorded cause. -/
theorem Tracks.closeWatcher (registered : sub.registered = true) (failure : Option Err)
    (recorded : failure = some lagged ∨
      failure = none ∧
        (sub.cancelled = true ∨ ∃ event ∈ sub.placed, terminal event = true)) :
    (sub.closeWatcher failure).Tracks sequence terminal lagged
      capacity last := by
  have opened : sub.closed = false := by
    simpa [registered] using tracks.closedIff
  have eventsOpen := tracks.eventsCloses
  have errorsOpen := tracks.errorsCloses
  have silent := tracks.noErrorYet registered
  simp only [opened, Bool.false_eq_true, if_false] at eventsOpen errorsOpen
  have silentParts : sub.receivedErrors = [] ∧ sub.errors.buffer = [] := by
    simpa [reported] using silent
  constructor
  · simpa using tracks.consecutive
  · simpa using tracks.behind
  · simp [Subscriber.closeWatcher, opened]
  · simp [Subscriber.closeWatcher, opened]
  · simp [Subscriber.closeWatcher, opened, Chan.close, eventsOpen]
  · cases failure <;>
      simp [Subscriber.closeWatcher, opened, Chan.close, Chan.send, errorsOpen]
  · simp [Subscriber.closeWatcher, opened]
  · simp [Subscriber.closeWatcher, opened]
  · intro _
    rcases recorded with rfl | ⟨rfl, cause⟩
    · left
      simp [Subscriber.closeWatcher, opened, reported, Chan.close, Chan.send, silentParts]
    right
    refine ⟨by simp [Subscriber.closeWatcher, opened, reported, Chan.close, silentParts], ?_⟩
    rw [placed_closeWatcher, current_closeWatcher]
    rcases cause with cancelled | ended
    · left
      simp [Subscriber.closeWatcher, opened, cancelled]
    · exact .inr (.inr ended)

/-- The publisher moving on does not disturb a closed subscriber. -/
theorem Tracks.advance (unregistered : sub.registered = false) (le : last ≤ later) :
    sub.Tracks sequence terminal lagged capacity later :=
  { tracks with
    behind := Nat.le_trans tracks.behind le
    upToDate := by simp [unregistered] }

/-- Accepting the next event into a channel that has room. -/
theorem Tracks.accept (registered : sub.registered = true) (next : sequence event = last + 1) :
    { sub with events := sub.events.send event }.Tracks
      sequence terminal lagged capacity (last + 1) := by
  have upToDate := tracks.upToDate registered
  have placedEq :
      { sub with events := sub.events.send event }.placed =
        sub.placed ++ [event] := by
    simp [placed, Chan.send]
  constructor
  · rw [placedEq]
    simp only [map_append, map_cons, map_nil, tracks.consecutive, length_append, length_singleton]
    rw [range'_concat]
    simp only [Nat.one_mul, append_cancel_left_eq, cons.injEq, and_true]
    omega
  · rw [placedEq]
    simp only [length_append, length_singleton]
    omega
  · intro _
    rw [placedEq]
    simp only [length_append, length_singleton]
    omega
  · exact tracks.closedIff
  · exact tracks.eventsCloses
  · exact tracks.errorsCloses
  · exact tracks.capacityEq
  · exact tracks.noErrorYet
  · intro closed
    have opened : sub.closed = false := by
      simpa [registered] using tracks.closedIff
    simp [opened] at closed

/-- Publishing the next event keeps the invariant of every subscriber. -/
theorem Tracks.offer (next : sequence event = last + 1) :
    (sub.offer lagged (terminal event) event).Tracks
      sequence terminal lagged capacity (last + 1) := by
  unfold Subscriber.offer
  split
  next registered =>
    split
    · -- A full channel: the subscriber is closed before the number advances.
      have closed :=
        tracks.closeWatcher registered (some lagged) (.inl rfl)
      refine closed.advance ?_ (Nat.le_succ last)
      have closedIff := closed.closedIff
      have opened : sub.closed = false := by
        simpa [registered] using tracks.closedIff
      simp [Subscriber.closeWatcher, opened]
    · have accepted := tracks.accept registered next
      dsimp only
      split
      next ended =>
        refine accepted.closeWatcher registered none (.inr ⟨rfl, .inr ?_⟩)
        exact ⟨event, by simp [placed, Chan.send], ended⟩
      · exact accepted
  next unregistered =>
    exact tracks.advance (by simpa using unregistered) (Nat.le_succ last)

theorem Tracks.cancel : sub.cancel.Tracks sequence terminal lagged capacity last := by
  unfold Subscriber.cancel
  split
  · exact tracks
  have marked :
      { sub with cancelled := true }.Tracks
        sequence terminal lagged capacity last :=
    { tracks with
      cause := fun closed =>
        (tracks.cause closed).imp_right fun ⟨silent, _⟩ =>
          ⟨silent, .inl rfl⟩ }
  unfold release
  split
  next registered =>
    exact marked.closeWatcher registered none (.inr ⟨rfl, .inl rfl⟩)
  · exact marked

theorem Tracks.readEvent :
    sub.readEvent.Tracks sequence terminal lagged capacity last := by
  have placedEq := placed_readEvent sub
  unfold Subscriber.readEvent at placedEq ⊢
  split
  · exact tracks
  rename_i event rest bufferEq
  rw [bufferEq] at placedEq
  constructor
  · rw [placedEq]
    exact tracks.consecutive
  · rw [placedEq]
    exact tracks.behind
  · rw [placedEq]
    exact tracks.upToDate
  · exact tracks.closedIff
  · exact tracks.eventsCloses
  · exact tracks.errorsCloses
  · exact tracks.capacityEq
  · exact tracks.noErrorYet
  · rw [placedEq]
    exact tracks.cause

theorem Tracks.readError :
    sub.readError.Tracks sequence terminal lagged capacity last := by
  have reportedEq := reported_readError sub
  unfold Subscriber.readError at reportedEq ⊢
  split
  · exact tracks
  rename_i err rest bufferEq
  rw [bufferEq] at reportedEq
  exact { tracks with
      noErrorYet := by
        rw [reportedEq]
        exact tracks.noErrorYet
      cause := by
        rw [reportedEq]
        exact tracks.cause }

/-- What the reader has taken is numbered without gap from the first observation. -/
theorem Tracks.received_consecutive :
    sub.received.map sequence =
      range' (sequence sub.current + 1) sub.received.length := by
  have consecutive := tracks.consecutive
  rw [placed, map_append, length_append, ← range'_append_1] at consecutive
  exact (append_inj consecutive (by simp)).1

/-- The buffer holds no more than was published since the first observation. -/
theorem Tracks.buffer_length_le :
    sub.events.buffer.length + sequence sub.current ≤ last := by
  have behind := tracks.behind
  simp only [placed, length_append] at behind
  omega

end

end Tracks

/-- After a terminal offer no subscriber is registered. -/
theorem registered_offer_terminal (event : Event) {sub : Subscriber Event Err}
    (closedIff : sub.closed = !sub.registered) :
    (sub.offer lagged true event).registered = false := by
  cases registered : sub.registered with
  | false => simp [offer, registered]
  | true =>
    have opened : sub.closed = false := by
      simpa [registered] using closedIff
    by_cases full : sub.events.isFull <;>
      simp [offer, registered, full, closeWatcher, opened]

/-- An offer reports an error only to a registered subscriber whose event channel
is full. -/
theorem isFull_of_offer_reports {lagged : Err} {terminal : Bool} {sub : Subscriber Event Err}
    (reports : (sub.offer lagged terminal event).reported ≠ sub.reported) :
    sub.registered = true ∧ sub.events.isFull = true := by
  cases registered : sub.registered with
  | false =>
    rw [offer_unregistered lagged terminal event registered] at reports
    exact absurd rfl reports
  | true =>
    refine ⟨rfl, ?_⟩
    by_contra room
    apply reports
    cases terminal <;> cases closed : sub.closed <;>
      simp [offer, registered, room, closeWatcher, closed, reported, Chan.close]

/-! ## Nothing follows a terminal event -/

/-- A terminal event is the last one that is placed, and the channels are closed behind
it without an error. -/
def Concludes (terminal : Event → Bool) (sub : Subscriber Event Err) : Prop :=
  ∀ earlier event later, sub.placed = earlier ++ event :: later →
    terminal event = true → later = [] ∧ sub.registered = false ∧ sub.reported = []

section Concludes

variable {capacity last : Nat} {terminal : Event → Bool} {sub : Subscriber Event Err}

theorem concludes_of_placed_nil (empty : sub.placed = []) :
    sub.Concludes terminal := by
  intro earlier event later split
  rw [empty] at split
  simp at split

theorem Concludes.not_terminal (concludes : sub.Concludes terminal)
    (registered : sub.registered = true) (member : event ∈ sub.placed) :
    terminal event = false := by
  by_contra ended
  obtain ⟨earlier, later, split⟩ := append_of_mem member
  obtain ⟨_, unregistered, _⟩ := concludes earlier event later split (by simpa using ended)
  rw [registered] at unregistered
  cases unregistered

theorem Concludes.offer {sequence : Event → Nat} {lagged : Err} (concludes : sub.Concludes terminal)
    (tracks : sub.Tracks sequence terminal lagged capacity last) (event : Event) :
    (sub.offer lagged (terminal event) event).Concludes terminal := by
  cases registered : sub.registered with
  | false =>
    rw [offer_unregistered _ _ _ registered]
    exact concludes
  | true =>
    have opened : sub.closed = false := by
      simpa [registered] using tracks.closedIff
    have silent := tracks.noErrorYet registered
    intro earlier found later split ended
    have before : ∀ rest, sub.placed = earlier ++ found :: rest → False := by
      intro rest placedEq
      have member : found ∈ sub.placed := by simp [placedEq]
      rw [concludes.not_terminal registered member] at ended
      cases ended
    by_cases full : sub.events.isFull = true
    · simp only [Subscriber.offer, registered, full, if_true, placed_closeWatcher] at split
      exact absurd split (before later)
    have placedEq : (sub.offer lagged (terminal event) event).placed =
        sub.placed ++ [event] := by
      cases terminal event <;>
        simp [Subscriber.offer, registered, full, Subscriber.closeWatcher, opened,
          placed, Chan.send, Chan.close]
    rw [placedEq] at split
    rcases eq_nil_or_concat later with rfl | ⟨rest, last, rfl⟩
    · have same : event = found := by
        have ends := congrArg getLast? split
        simpa using ends
      subst same
      have silentParts : sub.receivedErrors = [] ∧ sub.errors.buffer = [] := by
        simpa [reported] using silent
      refine ⟨rfl, ?_, ?_⟩ <;>
        simp [Subscriber.offer, registered, full, ended, Subscriber.closeWatcher,
          opened, reported, Chan.close, silentParts]
    · -- the found event was there before the offer
      have parts : sub.placed = earlier ++ found :: rest := by
        have shape : sub.placed ++ [event] = (earlier ++ found :: rest) ++ [last] := by
          simpa using split
        exact (append_inj' shape rfl).1
      exact absurd parts (before rest)

theorem Concludes.reader (concludes : sub.Concludes terminal) (allowed : ReaderAction op)
    (closedIff : sub.closed = !sub.registered)
    (cancelled : sub.cancelled = true → sub.registered = false) :
    (op sub).Concludes terminal := by
  intro earlier event later split ended
  rw [allowed.placed] at split
  obtain ⟨last, unregistered, silent⟩ := concludes earlier event later split ended
  refine ⟨last, ?_⟩
  cases allowed with
  | cancel =>
    obtain ⟨_, registered, _, reportedEq, _⟩ :=
      cancel_frame sub closedIff cancelled
    exact ⟨registered, reportedEq.trans silent⟩
  | readEvent =>
    obtain ⟨_, registered, _, reportedEq, _⟩ := readEvent_frame sub
    exact ⟨registered.trans unregistered, reportedEq.trans silent⟩
  | readError =>
    obtain ⟨_, registered, _, _⟩ := readError_frame sub
    exact ⟨registered.trans unregistered, (reported_readError sub).trans silent⟩

end Concludes

end Subscriber

/-! ## Hubs -/

/-- The subscribers of one publisher, by the handle their reader holds. -/
abbrev Hub (Event : Type u) (Err : Type v) :=
  Nat → Option (Subscriber Event Err)

namespace Hub

variable (hub : Hub Event Err)

/-- Offer an event to every subscriber. -/
def publish (lagged : Err) (terminal : Bool) (event : Event) : Hub Event Err :=
  fun handle => (hub handle).map (Subscriber.offer lagged terminal event)

/-- Close the channels of every subscriber that is still registered. -/
def releaseAll : Hub Event Err :=
  fun handle => (hub handle).map Subscriber.release

section

variable (handle : Nat)

/-- Act on one subscriber. -/
def modify (action : Subscriber Event Err → Subscriber Event Err) : Hub Event Err :=
  update hub handle ((hub handle).map action)

/-- Add a subscriber under a new handle. -/
def insert (sub : Subscriber Event Err) : Hub Event Err :=
  update hub handle (some sub)

/-- Forget a subscriber. -/
def erase : Hub Event Err :=
  update hub handle none

theorem erase_publish (lagged : Err) (terminal : Bool) (event : Event) :
    (hub.publish lagged terminal event).erase handle =
      (hub.erase handle).publish lagged terminal event := by
  funext other
  by_cases same : other = handle
  · subst same
    simp [erase, publish]
  · simp [erase, publish, same]

theorem erase_releaseAll : hub.releaseAll.erase handle = (hub.erase handle).releaseAll := by
  funext other
  by_cases same : other = handle
  · subst same
    simp [erase, releaseAll]
  · simp [erase, releaseAll, same]

end

variable {handle other : Nat}

theorem erase_modify_of_ne (different : other ≠ handle)
    (action : Subscriber Event Err → Subscriber Event Err) :
    (hub.modify other action).erase handle = (hub.erase handle).modify other action := by
  simp only [erase, modify]
  rw [update_comm different, update_of_ne different]

theorem erase_insert_of_ne (different : other ≠ handle) (sub : Subscriber Event Err) :
    (hub.insert other sub).erase handle = (hub.erase handle).insert other sub :=
  update_comm different _ _ _

@[simp]
theorem erase_modify_self (handle : Nat) (action : Subscriber Event Err → Subscriber Event Err) :
    (hub.modify handle action).erase handle = hub.erase handle := by
  simp [erase, modify]

@[simp]
theorem erase_insert_self (handle : Nat) (sub : Subscriber Event Err) :
    (hub.insert handle sub).erase handle = hub.erase handle := by
  simp [erase, insert]

theorem erase_apply_of_ne (different : other ≠ handle) :
    hub.erase handle other = hub other :=
  update_of_ne different _ _

variable {holds : Subscriber Event Err → Prop}

section

variable {action : Subscriber Event Err → Subscriber Event Err} {added : Subscriber Event Err}
  (all : ∀ other sub, hub other = some sub → holds sub)
include all

/-- A predicate kept by an action on one subscriber is kept by the hub. -/
theorem forall_modify (kept : ∀ sub, holds sub → holds (action sub)) :
    ∀ other sub, hub.modify handle action other = some sub → holds sub := by
  intro other sub found
  by_cases same : other = handle
  · subst same
    simp only [modify, update_self, Option.map_eq_some_iff] at found
    obtain ⟨before, foundBefore, rfl⟩ := found
    exact kept before (all other before foundBefore)
  · rw [modify, update_of_ne same] at found
    exact all other sub found

theorem forall_insert (new : holds added) :
    ∀ other sub, hub.insert handle added other = some sub → holds sub := by
  intro other sub found
  by_cases same : other = handle
  · subst same
    simp only [insert, update_self, Option.some.injEq] at found
    exact found ▸ new
  · rw [insert, update_of_ne same] at found
    exact all other sub found

end

end Hub

end Subscribers

end Library.Broadcast

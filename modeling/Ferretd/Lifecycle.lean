import Ferretd.Errors

/-!
# Close operations and creation gates

The synchronisation primitives of the `lifecycle` package.  Every method of the
source is one critical section, so it is one function here.  A `panic` is an error
result.  The two channels are modelled by what a receiver can see: the `done`
channel of a close operation is closed exactly when the operation is finished, and
the `createsDone` channels of a gate are numbered, so that a waiter that captured
one can tell whether that channel has been closed since.
-/

namespace Ferretd

structure Panic where
  message : String

/-- Whether a captured channel has been closed.  The owner of a numbered channel
forgets it in the section that closes it and never makes the same number again, so
a channel is open exactly while it is still the current one. -/
def signalled (current captured : Option Nat) : Bool :=
  match captured with
  | none => true
  | some channel => decide (current ≠ some channel)

/-! ## Close operations -/

inductive CloseState where
  | idle
  | started
  | finished
deriving DecidableEq

structure CloseOperation where
  state : CloseState
  err : GoError
deriving DecidableEq

namespace CloseOperation

def new : CloseOperation :=
  ⟨.idle, []⟩

section

variable (op : CloseOperation)

/-- `Begin`: the first caller owns the teardown. -/
def begin : Bool × CloseOperation :=
  if op.state = .idle then
    (true, { op with state := .started })
  else
    (false, op)

def started : Bool :=
  decide (op.state ≠ .idle)

def finished : Bool :=
  decide (op.state = .finished)

def finish (err : GoError) :
    Except Panic CloseOperation :=
  if op.state = .started then
    .ok ⟨.finished, err⟩
  else
    .error ⟨"lifecycle: finish close operation outside teardown"⟩

/-- `Wait`, as one look at the operation: `none` while the caller has to block.
`ctxErr` is the caller's context error; a published result takes precedence. -/
def wait (ctxErr : GoError) :
    Except Panic (Option GoError) :=
  match op.state with
  | .idle => .error ⟨"lifecycle: wait before close operation begins"⟩
  | .finished => .ok (some op.err)
  | .started => .ok (if ctxErr = [] then none else some ctxErr)

end

variable {op first second third last : CloseOperation}

theorem wait_some {err : GoError} (waits : op.wait [] = .ok (some err)) :
    op.state = .finished ∧ err = op.err := by
  unfold wait at waits
  split at waits <;> cases waits
  next finished => exact ⟨finished, rfl⟩

@[simp]
theorem started_eq_true : op.started = true ↔ op.state ≠ .idle := by
  simp [started]

@[simp]
theorem started_eq_false : op.started = false ↔ op.state = .idle := by
  simp [started]

theorem begin_of_idle (idle : op.state = .idle) :
    op.begin = (true, { op with state := .started }) := by
  simp [begin, idle]

theorem begin_of_started (busy : op.state ≠ .idle) :
    op.begin = (false, op) := by
  simp [begin, busy]

theorem finish_of_started (err : GoError) (open_ : op.state = .started) :
    op.finish err = .ok ⟨.finished, err⟩ := by
  simp [finish, open_]

/-- A close operation only moves forward, and its result is written once. -/
structure Evolves (before after : CloseOperation) : Prop where
  started : before.state ≠ .idle → after.state ≠ .idle
  finished : before.state = .finished → after = before

theorem Evolves.refl (op : CloseOperation) : Evolves op op :=
  ⟨id, fun _ => rfl⟩

theorem Evolves.trans (left : Evolves first second) (right : Evolves second third) :
    Evolves first third where
  started := fun busy => right.started (left.started busy)
  finished := fun done => by
    have same := left.finished done
    rw [right.finished (same ▸ done), same]

theorem evolves_begin (op : CloseOperation) : Evolves op op.begin.2 := by
  by_cases idle : op.state = .idle
  · rw [begin_of_idle idle]
    exact ⟨fun _ => by simp, fun done => by simp [idle] at done⟩
  · rw [begin_of_started idle]
    exact Evolves.refl op

theorem evolves_finish {next : CloseOperation} {err : GoError}
    (finished : op.finish err = .ok next) : Evolves op next := by
  unfold finish at finished
  split at finished
  next open_ =>
    cases finished
    exact ⟨fun _ => by simp, fun done => by simp [open_] at done⟩
  · cases finished

/-- What one waiter without a context error has been told at `first`, every waiter is
told at `last`. -/
def Agrees (first last : CloseOperation) : Prop :=
  ∀ answer, first.wait [] = .ok (some answer) → ∀ ctxErr, last.wait ctxErr = .ok (some answer)

theorem Evolves.agrees (evolves : first.Evolves last) :
    first.Agrees last := by
  intro answer told ctxErr
  cases state : first.state with
  | idle | started => simp [wait, state] at told
  | finished =>
    rw [evolves.finished state]
    simpa [wait, state] using told

end CloseOperation

/-! ## Gates -/

/-- `lifecycle.Gate`.  `createsDone` is the number of the channel that admitted
creators will close, and `channels` counts the channels made so far. -/
structure Gate where
  close : CloseOperation
  creating : Nat
  createsDone : Option Nat
  channels : Nat

namespace Gate

def new : Gate :=
  ⟨CloseOperation.new, 0, none, 0⟩

section

variable (gate : Gate)

def beginCreate : Bool × Gate :=
  if gate.close.started then
    (false, gate)
  else if gate.creating = 0 then
    (true, { gate with
      creating := 1
      createsDone := some gate.channels
      channels := gate.channels + 1 })
  else
    (true, { gate with creating := gate.creating + 1 })

/-- `EndCreate`; the Boolean says that no creator remains. -/
def endCreate : Except Panic (Bool × Gate) :=
  if gate.creating = 0 then
    .error ⟨"lifecycle: end child creation without admission"⟩
  else if gate.creating = 1 then
    .ok (true, { gate with creating := 0, createsDone := none })
  else
    .ok (false, { gate with creating := gate.creating - 1 })

def beginClose : Bool × Gate :=
  (gate.close.begin.1, { gate with close := gate.close.begin.2 })

def accepting : Bool :=
  !gate.close.started

def idle : Bool :=
  decide (gate.creating = 0)

/-- The locked part of `WaitForCreates`: the channel to wait on, if any. -/
def waitForCreates : Except Panic (Option Nat) :=
  if gate.close.started then
    .ok gate.createsDone
  else
    .error ⟨"lifecycle: wait for child creation before close begins"⟩

/-- Whether the channel captured by `waitForCreates` has been closed since. -/
def createsSignalled (captured : Option Nat) : Bool :=
  signalled gate.createsDone captured

def finishClose (err : GoError) : Except Panic Gate :=
  if gate.creating ≠ 0 then
    .error ⟨"lifecycle: finish parent close with active creators"⟩
  else
    (gate.close.finish err).map fun close => { gate with close := close }

def waitClose (ctxErr : GoError) : Except Panic (Option GoError) :=
  gate.close.wait ctxErr

end

/-- What every gate satisfies that was built by its methods. -/
structure WellFormed (gate : Gate) : Prop where
  channelIff : gate.createsDone = none ↔ gate.creating = 0
  channelBound : ∀ channel, gate.createsDone = some channel → channel < gate.channels
  finishedIdle : gate.close.state = .finished → gate.creating = 0

/-- Two gate states of one run: the close operation moves forward, and once it has
begun no creator is admitted and the awaited channel is only ever closed. -/
structure Evolves (before after : Gate) : Prop where
  close : before.close.Evolves after.close
  creating : before.close.state ≠ .idle → after.creating ≤ before.creating
  channel : before.close.state ≠ .idle →
    after.createsDone = before.createsDone ∨ after.createsDone = none

theorem Evolves.refl (gate : Gate) : Evolves gate gate :=
  ⟨.refl _, fun _ => Nat.le_refl _, fun _ => .inl rfl⟩

theorem wellFormed_new : new.WellFormed := by
  constructor <;> simp [new, CloseOperation.new]

section Steps

variable {gate : Gate}

theorem beginCreate_of_accepting (accepting : gate.close.state = .idle) :
    gate.beginCreate.1 = true ∧
      gate.beginCreate.2.creating = gate.creating + 1 ∧
      gate.beginCreate.2.close = gate.close := by
  have notStarted : gate.close.started = false := by simpa using accepting
  by_cases none : gate.creating = 0 <;> simp [beginCreate, notStarted, none]

theorem beginCreate_of_started (busy : gate.close.state ≠ .idle) :
    gate.beginCreate = (false, gate) := by
  have started : gate.close.started = true := by simpa using busy
  simp [beginCreate, started]

theorem evolves_beginCreate : Evolves gate gate.beginCreate.2 := by
  by_cases busy : gate.close.state = .idle
  · have same := (beginCreate_of_accepting busy).2.2
    exact ⟨same ▸ .refl _, fun started => absurd busy started,
      fun started => absurd busy started⟩
  · rw [beginCreate_of_started busy]
    exact Evolves.refl gate

theorem WellFormed.beginCreate (wellFormed : gate.WellFormed) :
    gate.beginCreate.2.WellFormed := by
  by_cases busy : gate.close.state = .idle
  · have notStarted : gate.close.started = false := by simpa using busy
    by_cases none : gate.creating = 0
    · constructor <;> simp [Gate.beginCreate, notStarted, none, busy]
    have channel : gate.createsDone ≠ Option.none := by
      simpa [wellFormed.channelIff] using none
    have bound := wellFormed.channelBound
    constructor <;>
      simp_all [Gate.beginCreate]
  · rw [beginCreate_of_started busy]
    exact wellFormed

variable {next : Gate} {last : Bool}

theorem endCreate_ok (ended : gate.endCreate = .ok (last, next)) :
    gate.creating = next.creating + 1 ∧ next.close = gate.close ∧
      (last = true ↔ next.creating = 0) := by
  unfold endCreate at ended
  split at ended
  · cases ended
  split at ended
  next one =>
    cases ended
    simp [one]
  rename_i active many
  cases ended
  refine ⟨?_, rfl, ?_⟩
  · show gate.creating = gate.creating - 1 + 1
    omega
  · simp only [Bool.false_eq_true, false_iff]
    show gate.creating - 1 ≠ 0
    omega

theorem evolves_endCreate (ended : gate.endCreate = .ok (last, next)) :
    Evolves gate next := by
  obtain ⟨count, close, _⟩ := endCreate_ok ended
  refine ⟨close ▸ .refl _, fun _ => by omega, fun _ => ?_⟩
  unfold endCreate at ended
  split at ended
  · cases ended
  split at ended
  · cases ended
    exact .inr rfl
  · cases ended
    exact .inl rfl

theorem WellFormed.endCreate (wellFormed : gate.WellFormed)
    (ended : gate.endCreate = .ok (last, next)) : next.WellFormed := by
  have idle := wellFormed.finishedIdle
  have bound := wellFormed.channelBound
  have channel := wellFormed.channelIff
  unfold Gate.endCreate at ended
  split at ended
  · cases ended
  rename_i active
  split at ended
  · cases ended
    constructor <;> simp
  rename_i many
  cases ended
  constructor
  · show gate.createsDone = none ↔ gate.creating - 1 = 0
    rw [channel]
    omega
  · exact bound
  · intro done
    exact absurd (idle done) active

theorem evolves_beginClose : Evolves gate gate.beginClose.2 :=
  ⟨CloseOperation.evolves_begin gate.close, fun _ => Nat.le_refl _, fun _ => .inl rfl⟩

theorem beginClose_of_accepting (accepting : gate.close.state = .idle) :
    gate.beginClose = (true, { gate with close := { gate.close with state := .started } }) := by
  simp [beginClose, CloseOperation.begin_of_idle accepting]

theorem beginClose_of_started (busy : gate.close.state ≠ .idle) :
    gate.beginClose = (false, gate) := by
  simp [beginClose, CloseOperation.begin_of_started busy]

theorem WellFormed.beginClose (wellFormed : gate.WellFormed) : gate.beginClose.2.WellFormed := by
  by_cases busy : gate.close.state = .idle
  · rw [beginClose_of_accepting busy]
    exact ⟨wellFormed.channelIff, wellFormed.channelBound, by simp⟩
  · rw [beginClose_of_started busy]
    exact wellFormed

variable {err : GoError}

theorem finishClose_ok (finished : gate.finishClose err = .ok next) :
    gate.creating = 0 ∧ gate.close.state = .started ∧
      next = { gate with close := ⟨.finished, err⟩ } := by
  unfold finishClose at finished
  split at finished
  · cases finished
  rename_i idle
  have noCreators : gate.creating = 0 := by simpa using idle
  by_cases open_ : gate.close.state = .started
  · rw [CloseOperation.finish_of_started err open_] at finished
    cases finished
    exact ⟨noCreators, open_, rfl⟩
  · simp [CloseOperation.finish, open_, Except.map] at finished

theorem evolves_finishClose (finished : gate.finishClose err = .ok next) :
    Evolves gate next := by
  obtain ⟨_, open_, rfl⟩ := finishClose_ok finished
  exact ⟨⟨fun _ => by simp, fun done => by simp [open_] at done⟩,
    fun _ => Nat.le_refl _, fun _ => .inl rfl⟩

theorem WellFormed.finishClose (wellFormed : gate.WellFormed)
    (finished : gate.finishClose err = .ok next) : next.WellFormed := by
  obtain ⟨noCreators, _, rfl⟩ := finishClose_ok finished
  exact ⟨wellFormed.channelIff, wellFormed.channelBound, fun _ => noCreators⟩

end Steps

/-- What a waiter knows that captured a channel after the close began: either no
creator is left, or the captured channel is still the awaited one. -/
def Awaits (gate : Gate) (captured : Option Nat) : Prop :=
  gate.close.state ≠ .idle ∧ (gate.creating = 0 ∨ captured ≠ none ∧ gate.createsDone = captured)

theorem awaits_waitForCreates {gate : Gate} (wellFormed : gate.WellFormed)
    (busy : gate.close.state ≠ .idle) : gate.Awaits gate.createsDone := by
  refine ⟨busy, ?_⟩
  by_cases none : gate.createsDone = none
  · exact .inl (wellFormed.channelIff.1 none)
  · exact .inr ⟨none, rfl⟩

variable {captured : Option Nat}

theorem Awaits.evolve {before after : Gate} (awaits : before.Awaits captured)
    (evolves : before.Evolves after) (wellFormed : after.WellFormed) :
    after.Awaits captured := by
  obtain ⟨busy, settled⟩ := awaits
  refine ⟨evolves.close.started busy, ?_⟩
  rcases settled with idle | ⟨some, same⟩
  · left
    have bound := evolves.creating busy
    omega
  · rcases evolves.channel busy with kept | closed
    · exact .inr ⟨some, kept.trans same⟩
    · exact .inl (wellFormed.channelIff.1 closed)

theorem Awaits.signalled {gate : Gate} (awaits : gate.Awaits captured)
    (signalled : gate.createsSignalled captured = true) : gate.creating = 0 := by
  rcases awaits.2 with idle | ⟨some, same⟩
  · exact idle
  cases captured with
  | none => exact absurd rfl some
  | some => simp [createsSignalled, Ferretd.signalled, same] at signalled

end Gate

end Ferretd

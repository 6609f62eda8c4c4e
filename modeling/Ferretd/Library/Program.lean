import Mathlib.Init

/-!
# Programs that call an environment

A program is a tree of calls, each answered before it goes on.  `Semantics` says which
calls a program may make and how they are answered; `ensures` is the weakest precondition
of a program under it, and `yields` the same for programs that may fail.
-/

namespace Library

/-- A program with calls `Op`, answered in `Answer`, that returns a `Value`. -/
inductive Program (Op : Type) (Answer : Op → Type) (Value : Type) : Type where
  | done (value : Value)
  | call (op : Op) (next : Answer op → Program Op Answer Value)

namespace Program

variable {Op : Type} {Answer : Op → Type} {First Second Value : Type}

def bind : Program Op Answer First → (First → Program Op Answer Second) →
    Program Op Answer Second
  | .done value, rest => rest value
  | .call op next, rest => .call op fun answer => (next answer).bind rest

instance : Monad (Program Op Answer) where
  pure := .done
  bind := bind

/-- The program that makes one call. -/
def ask (op : Op) : Program Op Answer (Answer op) :=
  .call op .done

end Program

/-- Which calls may be made in a state, and how they are answered there. -/
structure Semantics (Op : Type) (Answer : Op → Type) (State : Type) where
  permitted : State → Op → Prop
  handles : State → (op : Op) → Answer op → State → Prop

namespace Semantics

variable {Op : Type} {Answer : Op → Type} {State First Second Value Fault : Type}
variable (semantics : Semantics Op Answer State)

/-- The weakest precondition: every call is permitted, and `post` holds at the end. -/
def ensures (post : Value → State → Prop) : Program Op Answer Value → State → Prop
  | .done value, state => post value state
  | .call op next, state =>
    semantics.permitted state op ∧
      ∀ answer after, semantics.handles state op answer after → ensures post (next answer) after

variable {semantics} {state : State}

theorem ensures_ask {op : Op} {post : Answer op → State → Prop}
    (permitted : semantics.permitted state op)
    (handled : ∀ answer after, semantics.handles state op answer after → post answer after) :
    semantics.ensures post (Program.ask op) state :=
  ⟨permitted, handled⟩

variable {strong weak : Value → State → Prop} {program : Program Op Answer Value}

/-- The rule of consequence. -/
theorem ensures_mono (implied : ∀ value state, strong value state → weak value state)
    (ensured : semantics.ensures strong program state) :
    semantics.ensures weak program state := by
  induction program generalizing state with
  | done value => exact implied value state ensured
  | call _ _ ih =>
    refine ⟨ensured.1, ?_⟩
    intro answer after handled
    exact ih answer (ensured.2 answer after handled)

/-- The rule of composition. -/
theorem ensures_bind {post : Second → State → Prop} {first : Program Op Answer First}
    {rest : First → Program Op Answer Second}
    (ensured : semantics.ensures (fun value after => semantics.ensures post (rest value) after)
      first state) :
    semantics.ensures post (first >>= rest) state := by
  induction first generalizing state with
  | done => exact ensured
  | call _ _ ih =>
    refine ⟨ensured.1, ?_⟩
    intro answer after handled
    exact ih answer (ensured.2 answer after handled)

/-! ## Programs that may fail -/

variable (semantics) in
/-- The weakest precondition of a program that may fail. -/
def yields (ok : Value → State → Prop) (failed : Fault → State → Prop)
    (code : ExceptT Fault (Program Op Answer) Value) (state : State) : Prop :=
  semantics.ensures (fun result after =>
      match result with
      | .ok value => ok value after
      | .error fault => failed fault after)
    code.run state

variable {ok : Value → State → Prop} {failed stronger : Fault → State → Prop}
  {code : ExceptT Fault (Program Op Answer) Value}

theorem yields_pure {value : Value} (holds : ok value state) :
    semantics.yields ok failed (pure value : ExceptT Fault (Program Op Answer) Value) state :=
  holds

theorem yields_throw {fault : Fault} (holds : failed fault state) :
    semantics.yields ok failed (throw fault : ExceptT Fault (Program Op Answer) Value) state :=
  holds

theorem yields_mono (implied : ∀ value state, strong value state → ok value state)
    (impliedFault : ∀ fault state, stronger fault state → failed fault state)
    (yielded : semantics.yields strong stronger code state) :
    semantics.yields ok failed code state := by
  refine ensures_mono ?_ yielded
  intro result after holds
  cases result with
  | ok value => exact implied value after holds
  | error fault => exact impliedFault fault after holds

theorem yields_bind {first : ExceptT Fault (Program Op Answer) First}
    {rest : First → ExceptT Fault (Program Op Answer) Value} (yielded : semantics.yields
      (fun value after => semantics.yields ok failed (rest value) after) failed first state) :
    semantics.yields ok failed (first >>= rest) state := by
  refine ensures_bind (ensures_mono ?_ yielded)
  intro result after holds
  cases result with
  | ok | error => exact holds

/-- A call whose answer is a value. -/
theorem yields_lift (ensured : semantics.ensures ok program state) :
    semantics.yields ok failed (ExceptT.lift program) state := by
  refine ensures_bind (ensures_mono ?_ ensured)
  intro value after holds
  exact holds

end Semantics

/-! ## Programs under any answers

What a program does whatever it is answered: which calls it makes, and what it returns
when it does not fail. -/

/-- Every call is permitted, and every value satisfies `post`. -/
def Program.issues {Op : Type} {Answer : Op → Type} {Value : Type} (permitted : Op → Prop)
    (post : Value → Prop) : Program Op Answer Value → Prop
  | .done value => post value
  | .call op next => permitted op ∧ ∀ answer, (next answer).issues permitted post

/-- The same for a program that may fail; the fault is left open. -/
def Issues {Op : Type} {Answer : Op → Type} {Value Fault : Type} (permitted : Op → Prop)
    (ok : Value → Prop) (code : ExceptT Fault (Program Op Answer) Value) : Prop :=
  code.run.issues permitted fun result => ∀ value, result = .ok value → ok value

/-- Run a program that may fail and look at its result. -/
def attempt {Op : Type} {Answer : Op → Type} {Value Fault : Type}
    (code : ExceptT Fault (Program Op Answer) Value) :
    ExceptT Fault (Program Op Answer) (Except Fault Value) :=
  ExceptT.lift code.run

namespace Issues

variable {Op : Type} {Answer : Op → Type} {First Second Value Fault State : Type}
variable {permitted wider : Op → Prop} {program : Program Op Answer Value}
variable {strong weak post ok : Value → Prop} {code : ExceptT Fault (Program Op Answer) Value}

theorem program_mono (implied : ∀ value, strong value → weak value)
    (issued : program.issues permitted strong) : program.issues permitted weak := by
  induction program with
  | done value => exact implied value issued
  | call _ _ ih =>
    exact ⟨issued.1, fun answer => ih answer (issued.2 answer)⟩

theorem program_bind {post : Second → Prop} {first : Program Op Answer First}
    {rest : First → Program Op Answer Second}
    (issued : first.issues permitted fun value => (rest value).issues permitted post) :
    (first >>= rest).issues permitted post := by
  induction first with
  | done => exact issued
  | call _ _ ih =>
    exact ⟨issued.1, fun answer => ih answer (issued.2 answer)⟩

theorem program_permit (implied : ∀ op, permitted op → wider op)
    (issued : program.issues permitted post) : program.issues wider post := by
  induction program with
  | done => exact issued
  | call op _ ih =>
    exact ⟨implied op issued.1, fun answer => ih answer (issued.2 answer)⟩

/-- More calls may be permitted. -/
theorem permit (implied : ∀ op, permitted op → wider op) (issued : Issues permitted ok code) :
    Issues wider ok code :=
  program_permit implied issued

theorem pure {value : Value} (holds : ok value) :
    Issues permitted ok (Pure.pure value : ExceptT Fault (Program Op Answer) Value) := by
  intro returned same
  cases same
  exact holds

theorem throw (fault : Fault) :
    Issues permitted ok (throw fault : ExceptT Fault (Program Op Answer) Value) :=
  nofun

theorem mono (issued : Issues permitted strong code)
    (implied : ∀ value, strong value → ok value) : Issues permitted ok code := by
  refine program_mono ?_ issued
  intro result holds value same
  exact implied value (holds value same)

theorem bind {middle : First → Prop} {first : ExceptT Fault (Program Op Answer) First}
    {rest : First → ExceptT Fault (Program Op Answer) Value}
    (issued : Issues permitted middle first)
    (continued : ∀ value, middle value → Issues permitted ok (rest value)) :
    Issues permitted ok (first >>= rest) := by
  refine program_bind (program_mono ?_ issued)
  intro result holds
  cases result with
  | ok value => exact continued value (holds value rfl)
  | error => nofun

theorem lift (issued : program.issues permitted ok) :
    Issues permitted ok (ExceptT.lift program : ExceptT Fault (Program Op Answer) Value) := by
  refine program_bind (program_mono ?_ issued)
  intro value holds returned same
  cases same
  exact holds

theorem attempt {found : Value → Prop} (issued : Issues permitted found code) :
    Issues permitted (fun result => ∀ value, result = .ok value → found value)
      (Library.attempt code) :=
  lift issued

/-- What a program does under any answers it also does under a semantics, with every
assertion that the permitted calls keep. -/
theorem ensures {semantics : Semantics Op Answer State} {holds : State → Prop} {state : State}
    (issued : program.issues permitted post) (initially : holds state)
    (granted : ∀ state op, holds state → permitted op → semantics.permitted state op)
    (kept : ∀ state op answer after, holds state → permitted op →
      semantics.handles state op answer after → holds after) :
    semantics.ensures (fun value after => post value ∧ holds after) program state := by
  induction program generalizing state with
  | done => exact ⟨issued, initially⟩
  | call op _ ih =>
    refine ⟨granted state op initially issued.1, ?_⟩
    intro answer after handled
    exact ih answer (issued.2 answer) (kept state op answer after initially issued.1 handled)

end Issues

/-- What a program returns under any answers it also returns under a semantics. -/
theorem Semantics.yields_issues {Op : Type} {Answer : Op → Type} {State Value Fault : Type}
    {semantics : Semantics Op Answer State} {permitted : Op → Prop} {also : Value → Prop}
    {ok : Value → State → Prop} {failed : Fault → State → Prop}
    {code : ExceptT Fault (Program Op Answer) Value} {state : State}
    (yielded : semantics.yields ok failed code state) (issued : Issues permitted also code) :
    semantics.yields (fun value after => ok value after ∧ also value) failed code state := by
  have both : ∀ (program : Program Op Answer (Except Fault Value)) (state : State),
      semantics.ensures (fun result after =>
          match result with
          | .ok value => ok value after
          | .error fault => failed fault after) program state →
      (program.issues permitted fun result => ∀ value, result = .ok value → also value) →
      semantics.ensures (fun result after =>
          match result with
          | .ok value => ok value after ∧ also value
          | .error fault => failed fault after) program state := by
    intro program
    induction program with
    | done result =>
      intro state ensured returned
      cases result with
      | ok value => exact ⟨ensured, returned value rfl⟩
      | error => exact ensured
    | call _ _ ih =>
      intro state ensured returned
      refine ⟨ensured.1, ?_⟩
      intro answer after handled
      exact ih answer after (ensured.2 answer after handled) (returned.2 answer)
  exact both code.run state yielded issued

theorem Semantics.yields_attempt {Op : Type} {Answer : Op → Type} {State Value Fault : Type}
    {semantics : Semantics Op Answer State} {ok : Except Fault Value → State → Prop}
    {failed : Fault → State → Prop} {code : ExceptT Fault (Program Op Answer) Value} {state : State}
    (yielded : semantics.yields (fun value => ok (.ok value)) (fun fault => ok (.error fault))
      code state) :
    semantics.yields ok failed (attempt code) state := by
  refine yields_lift (ensures_mono ?_ yielded)
  intro result after holds
  cases result with
  | ok | error => exact holds

/-! ## Answered runs -/

/-- A run of a program to its end, with its calls and their answers. -/
inductive Program.Runs {Op : Type} {Answer : Op → Type} {Value : Type} :
    Program Op Answer Value → List (Sigma Answer) → Value → Prop
  | done (value : Value) : Runs (.done value) [] value
  | call {op : Op} {next : Answer op → Program Op Answer Value} {trace : List (Sigma Answer)}
      {value : Value} (answer : Answer op) (rest : Runs (next answer) trace value) :
      Runs (.call op next) (⟨op, answer⟩ :: trace) value

namespace Program.Runs

variable {Op : Type} {Answer : Op → Type} {First Value Fault : Type}
variable {trace : List (Sigma Answer)}

theorem of_bind {first : Program Op Answer First} {rest : First → Program Op Answer Value}
    {result : Value} (run : Runs (first >>= rest) trace result) :
    ∃ front value back, trace = front ++ back ∧ Runs first front value ∧
      Runs (rest value) back result := by
  induction first generalizing trace with
  | done value => exact ⟨[], value, trace, rfl, .done value, run⟩
  | call op next ih =>
    cases run with
    | call answer run =>
      obtain ⟨front, value, back, rfl, before, after⟩ := ih answer run
      exact ⟨⟨op, answer⟩ :: front, value, back, rfl, .call answer before, after⟩

/-- A program that returns a value has not failed on its way. -/
theorem of_bind_ok {first : ExceptT Fault (Program Op Answer) First}
    {rest : First → ExceptT Fault (Program Op Answer) Value} {result : Value}
    (run : Runs (first >>= rest).run trace (.ok result)) :
    ∃ front value back, trace = front ++ back ∧ Runs first.run front (.ok value) ∧
      Runs (rest value).run back (.ok result) := by
  obtain ⟨front, value, back, same, before, after⟩ := of_bind run
  cases value with
  | ok value => exact ⟨front, value, back, same, before, after⟩
  | error => cases after

theorem of_attempt {code : ExceptT Fault (Program Op Answer) Value}
    {result : Except Fault Value} (run : Runs (attempt code).run trace (.ok result)) :
    Runs code.run trace result := by
  obtain ⟨front, value, back, rfl, before, after⟩ := of_bind run
  cases after
  rw [List.append_nil]
  exact before

end Program.Runs

/-! ## Interference

Between two calls of a program the rest of the system may move the state. -/

namespace Semantics

variable {Op : Type} {Answer : Op → Type} {State Value : Type}

/-- The calls of a semantics, each after some moves of the rest of the system. -/
def amid (semantics : Semantics Op Answer State) (moves : State → State → Prop) :
    Semantics Op Answer State where
  permitted state op := ∀ middle, moves state middle → semantics.permitted middle op
  handles state op answer after :=
    ∃ middle, moves state middle ∧ semantics.handles middle op answer after

variable {semantics : Semantics Op Answer State} {moves : State → State → Prop}
variable {post : Value → State → Prop} {state after : State}

/-- A move keeps the specification of what is left of a program. -/
theorem ensures_moves (transitive : ∀ first second third,
      moves first second → moves second third → moves first third)
    (stable : ∀ value first second, post value first → moves first second → post value second)
    {program : Program Op Answer Value} (moved : moves state after)
    (ensured : (semantics.amid moves).ensures post program state) :
    (semantics.amid moves).ensures post program after := by
  cases program with
  | done value => exact stable value state after ensured moved
  | call =>
    refine ⟨fun middle further => ensured.1 middle (transitive _ _ _ moved further), ?_⟩
    rintro answer last ⟨middle, further, handled⟩
    exact ensured.2 answer last ⟨middle, transitive _ _ _ moved further, handled⟩

/-- A call without a move before it. -/
theorem ensures_call {op : Op} {answer : Answer op} {next : Answer op → Program Op Answer Value}
    (reflexive : ∀ state, moves state state) (handled : semantics.handles state op answer after)
    (ensured : (semantics.amid moves).ensures post (.call op next) state) :
    (semantics.amid moves).ensures post (next answer) after :=
  ensured.2 answer after ⟨state, reflexive state, handled⟩

end Semantics

end Library

import Mathlib.Data.List.Basic

/-!
# Labelled machines and their runs

A machine is a partial step function: the label fixes the scheduler's choice and every
answer of the environment.  A run is a finite sequence of steps in which every step meets a
side condition on the state it is taken in.
-/

namespace Library

universe u v

section Machine

variable {State : Type u} {Label : Type v} {holds : State → Prop}
variable {target : State} {first rest : List Label} {label : Label}
  {step : State → Label → Option State}

/-- `Run step allowed source target`: `target` is reached from `source` by steps
that all satisfy `allowed` in the state they are taken in. -/
inductive Run (step : State → Label → Option State)
    (allowed : State → Label → Prop) (source : State) : State → Prop
  | start : Run step allowed source source
  | next {middle target : State} (label : Label) :
      Run step allowed source middle →
      allowed middle label →
      step middle label = some target →
      Run step allowed source target

/-- Runs without a side condition. -/
abbrev Reaches (step : State → Label → Option State) (source target : State) :
    Prop :=
  Run step (fun _ _ => True) source target

/-- Execute a schedule; `none` when some step of it is not enabled. -/
def execute (step : State → Label → Option State) :
    State → List Label → Option State
  | state, [] => some state
  | state, label :: rest =>
    (step state label).bind fun next => execute step next rest

namespace Run

variable {source middle : State} {allowed : State → Label → Prop}

theorem trans (first : Run step allowed source middle) (second : Run step allowed middle target) :
    Run step allowed source target := by
  induction second with
  | start => exact first
  | next label _ permitted taken ih =>
    exact Run.next label ih permitted taken

/-- The invariant rule: what holds at the start and is kept by every allowed step
holds at the end of every run. -/
theorem invariant (run : Run step allowed source target) (initially : holds source)
    (preserved : ∀ state label next,
      holds state → allowed state label → step state label = some next → holds next) :
    holds target := by
  induction run with
  | start => exact initially
  | next label _ permitted taken ih =>
    exact preserved _ label _ ih permitted taken

end Run

theorem execute_append (state : State) (first second : List Label) :
    execute step state (first ++ second) = (execute step state first).bind fun middle =>
        execute step middle second := by
  induction first generalizing state with
  | nil => rfl
  | cons label _ ih =>
    cases taken : step state label with
    | none => simp [execute, taken]
    | some => simp [execute, taken, ih]

variable {source : State} {schedule : List Label}

/-- A schedule that executes is a run. -/
theorem reaches_of_execute (executed : execute step source schedule = some target) :
    Reaches step source target := by
  induction schedule generalizing source with
  | nil =>
    cases executed
    exact Run.start
  | cons label _ ih =>
    cases taken : step source label with
    | none => simp [execute, taken] at executed
    | some next =>
      have tailRun : Reaches step next target :=
        ih (by simpa [execute, taken] using executed)
      exact (Run.next label Run.start trivial taken).trans tailRun

variable {test : State → Bool}

/-- A schedule whose last state satisfies a Boolean test gives a reachable state
that does; the test is evaluated on the schedule. -/
theorem exists_reaches_of_test (passed : (execute step source schedule).map test = some true) :
    ∃ target, Reaches step source target ∧ test target = true := by
  cases executed : execute step source schedule with
  | none => simp [executed] at passed
  | some target =>
    exact ⟨target, reaches_of_execute executed, by
      simpa [executed] using passed⟩

/-- The same with one step of the schedule singled out. -/
theorem exists_step_of_test
    (passed : (execute step source (first ++ label :: rest)).map test = some true) :
    ∃ before after target, Reaches step source before ∧ step before label = some after ∧
      Reaches step after target ∧ test target = true := by
  obtain ⟨target, executed, holds⟩ := Option.map_eq_some_iff.mp passed
  rw [execute_append] at executed
  obtain ⟨before, reached, continued⟩ := Option.bind_eq_some_iff.mp executed
  obtain ⟨after, taken, finished⟩ := Option.bind_eq_some_iff.mp continued
  exact ⟨before, after, target, reaches_of_execute reached, taken,
    reaches_of_execute finished, holds⟩

/-- In every state before the goal somebody has a turn, and whichever turn is taken leads
on to the goal. -/
inductive Attains (step : State → Label → Option State) (turn : State → Label → Prop)
    (goal : State → Prop) : State → Prop
  | here {state : State} (reached : goal state) : Attains step turn goal state
  | move {state : State} (someone : ∃ label, turn state label)
      (enabled : ∀ label, turn state label → ∃ next, step state label = some next)
      (later : ∀ label next, turn state label → step state label = some next →
        Attains step turn goal next) : Attains step turn goal state

/-- The rule for it: each turn keeps an invariant and lowers a rank. -/
theorem attains_of_rank {turn : State → Label → Prop} {goal : State → Prop}
    {Rank : Type} {lower : Rank → Rank → Prop} (founded : WellFounded lower) (rank : State → Rank)
    (someone : ∀ state, holds state → ¬ goal state → ∃ label, turn state label)
    (advances : ∀ state label, holds state → ¬ goal state → turn state label →
      ∃ next, step state label = some next ∧ holds next ∧
        (goal next ∨ lower (rank next) (rank state)))
    (state : State) (held : holds state) : Attains step turn goal state := by
  induction known : rank state using founded.induction generalizing state with
  | _ value ih =>
    by_cases reached : goal state
    · exact .here reached
    refine .move (someone state held reached) ?_ ?_
    · intro label turns
      obtain ⟨next, taken, _⟩ := advances state label held reached turns
      exact ⟨next, taken⟩
    intro label next turns taken
    obtain ⟨other, takenOther, heldNext, arrives⟩ :=
      advances state label held reached turns
    cases taken.symm.trans takenOther
    rcases arrives with arrived | lowered
    · exact .here arrived
    · rw [known] at lowered
      exact ih (rank next) lowered next heldNext rfl

/-- The machine that refuses the steps a run may not take. -/
def guarded (step : State → Label → Option State) (allowed : State → Label → Prop)
    [∀ state label, Decidable (allowed state label)] (state : State)
    (label : Label) : Option State :=
  if allowed state label then step state label else none

/-- A schedule of the guarded machine is a run under the side condition. -/
theorem run_of_guarded {allowed : State → Label → Prop}
    [∀ state label, Decidable (allowed state label)]
    (reached : Reaches (guarded step allowed) source target) :
    Run step allowed source target := by
  induction reached with
  | start => exact Run.start
  | next label _ _ taken ih =>
    simp only [guarded] at taken
    split at taken
    next permitted =>
      exact Run.next label ih permitted taken
    · cases taken

/-- A schedule followed by a guarded one, with a test on the two states they lead to. -/
theorem exists_run_of_test {allowed : State → Label → Prop}
    [∀ state label, Decidable (allowed state label)]
    {second : List Label} {test : State → State → Bool}
    (passed : ((execute step source first).bind fun middle =>
      (execute (guarded step allowed) middle second).map (test middle)) = some true) :
    ∃ middle target, Reaches step source middle ∧ Run step allowed middle target ∧
      test middle target = true := by
  obtain ⟨middle, reached, continued⟩ := Option.bind_eq_some_iff.mp passed
  obtain ⟨target, executed, holds⟩ := Option.map_eq_some_iff.mp continued
  exact ⟨middle, target, reaches_of_execute reached,
    run_of_guarded (reaches_of_execute executed), holds⟩

end Machine

/-- A mark in a history that has grown at its end is the newest one or an older one. -/
theorem append_singleton_split {α : Type u} {history earlier later : List α}
    {newest mark : α} (split : history ++ [newest] = earlier ++ mark :: later) :
    later = [] ∧ earlier = history ∧ mark = newest ∨
      ∃ rest, later = rest ++ [newest] ∧ history = earlier ++ mark :: rest := by
  rcases List.eq_nil_or_concat later with rfl | ⟨rest, last, rfl⟩
  · obtain ⟨same, marks⟩ := List.append_inj' split rfl
    cases marks
    exact Or.inl ⟨rfl, same.symm, rfl⟩
  right
  have longer : history ++ [newest] = (earlier ++ mark :: rest) ++ [last] := by
    simpa using split
  obtain ⟨same, marks⟩ := List.append_inj' longer rfl
  cases marks
  exact ⟨rest, by simp, same⟩

end Library

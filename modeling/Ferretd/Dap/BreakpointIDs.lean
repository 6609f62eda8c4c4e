import Mathlib.Data.List.Forall2
import Ferretd.Library.Machine
import Ferretd.Debug.Session

/-!
# Breakpoint identities

A client sees one stable number for each requested position, whatever native number the
debugger gives to its breakpoint.  Native numbers of the current set are `active`; those of
earlier sets are `retired`, and kept as long as a command accepted before is still to
report its stop.
-/

namespace Ferretd.Dap

open Library List

/-- `apidebugger.BreakpointRequest`; every request of the adapter has the same binding
mode. -/
structure BreakpointRequest where
  position : SourcePosition

structure Breakpoint where
  id : Nat
  bound : Bool
  requestedLocation : Debug.Location
  location : Debug.Location

structure BreakpointKey where
  sourceName : String
  position : SourcePosition
deriving DecidableEq

/-- `breakpointIDs`.  The three maps are read by their zero value only: a key that a map
does not hold reads as zero. -/
structure BreakpointIDs where
  next : Nat
  pending : Nat
  stable : BreakpointKey → Nat
  active : Nat → Nat
  retired : Nat → Nat

variable {source : String}

namespace BreakpointIDs

/-- `newBreakpointIDs`. -/
def new : BreakpointIDs where
  next := 1
  pending := 0
  stable := fun _ => 0
  active := fun _ => 0
  retired := fun _ => 0

/-- One round of the loop of `replace`. -/
def assign (ids : BreakpointIDs) (key : BreakpointKey) (native : Nat) : BreakpointIDs :=
  let numbered :=
    if ids.stable key = 0 then
      { ids with
        next := ids.next + 1
        stable := Function.update ids.stable key ids.next }
    else
      ids
  { numbered with
    active := Function.update numbered.active native (numbered.stable key)
    retired := Function.update numbered.retired native 0 }

/-- The loop of `replace`, which indexes the requests by the position of the result. -/
def assignAll (source : String) :
    List BreakpointRequest → List Breakpoint → BreakpointIDs → Except Panic BreakpointIDs
  | _, [], ids => .ok ids
  | [], _ :: _, _ => .error ⟨"index out of range"⟩
  | req :: requests, result :: results, ids =>
    assignAll source requests results (ids.assign ⟨source, req.position⟩ result.id)

section

variable (ids : BreakpointIDs)

/-- What `replace` does before its loop. -/
def retire : BreakpointIDs :=
  { ids with
    active := fun _ => 0
    retired := fun native =>
      if ids.pending ≠ 0 ∧ ids.active native ≠ 0 then
        ids.active native
      else
        ids.retired native }

def replace (source : String)
    (requests : List BreakpointRequest) (results : List Breakpoint) :
    Except Panic BreakpointIDs :=
  assignAll source requests results ids.retire

def id (native : Nat) : Nat :=
  if ids.active native ≠ 0 then ids.active native else ids.retired native

def commandStarted : BreakpointIDs :=
  { ids with pending := ids.pending + 1 }

def commandStopped : BreakpointIDs :=
  { ids with
    pending := ids.pending - 1
    retired := if ids.pending - 1 = 0 then fun _ => 0 else ids.retired }

def finish : BreakpointIDs :=
  { ids with
    pending := 0
    active := fun _ => 0
    retired := fun _ => 0 }

/-! ## What the tables say of a native number -/

/-- The table holds the native number, as an active or a retired one. -/
def Knows (native : Nat) : Prop :=
  ids.active native ≠ 0 ∨ ids.retired native ≠ 0

end

/-- The tables agree with an assignment of requested positions to native numbers. -/
structure Sound (pos : Nat → BreakpointKey) (ids : BreakpointIDs) : Prop where
  positive : 0 < ids.next
  below : ∀ key, ids.stable key < ids.next
  injective : ∀ key other, ids.stable key ≠ 0 → ids.stable key = ids.stable other → key = other
  active : ∀ native, ids.active native ≠ 0 → ids.active native = ids.stable (pos native)
  retired : ∀ native, ids.retired native ≠ 0 → ids.retired native = ids.stable (pos native)

variable {pos : Nat → BreakpointKey} {ids after : BreakpointIDs}

theorem sound_new : Sound pos new := by
  refine ⟨Nat.one_pos, fun _ => Nat.one_pos, ?_, ?_, ?_⟩
  · intro key other holds
    exact absurd rfl holds
  · intro native holds
    exact absurd rfl holds
  · intro native holds
    exact absurd rfl holds

variable {native : Nat}

theorem Sound.id_of_knows (sound : Sound pos ids) (known : ids.Knows native) :
    ids.id native = ids.stable (pos native) ∧ ids.id native ≠ 0 := by
  unfold BreakpointIDs.id
  by_cases isActive : ids.active native ≠ 0
  · rw [if_pos isActive]
    exact ⟨sound.active native isActive, isActive⟩
  · rw [if_neg isActive]
    have isRetired := known.resolve_left isActive
    exact ⟨sound.retired native isRetired, isRetired⟩

theorem Sound.retire (sound : Sound pos ids) : Sound pos ids.retire := by
  refine ⟨sound.positive, sound.below, sound.injective, ?_, ?_⟩
  · intro native holds
    exact absurd rfl holds
  intro native holds
  simp only [BreakpointIDs.retire] at holds ⊢
  by_cases moved : ids.pending ≠ 0 ∧ ids.active native ≠ 0
  · rw [if_pos moved]
    exact sound.active native moved.2
  · rw [if_neg moved] at holds ⊢
    exact sound.retired native holds

section

variable (ids : BreakpointIDs)

section

variable (key : BreakpointKey)

/-- The stable number that `assign` uses for a key. -/
def numberOf : Nat :=
  if ids.stable key = 0 then ids.next else ids.stable key

theorem assign_stable (key other : BreakpointKey) (native : Nat) :
    (ids.assign key native).stable other =
      if other = key then ids.numberOf key else ids.stable other := by
  unfold assign numberOf
  by_cases fresh : ids.stable key = 0
  · rw [if_pos fresh, if_pos fresh]
    exact Function.update_apply ids.stable key ids.next other
  rw [if_neg fresh, if_neg fresh]
  by_cases same : other = key
  · rw [if_pos same, same]
  · rw [if_neg same]

theorem assign_active (native other : Nat) :
    (ids.assign key native).active other =
      if other = native then ids.numberOf key else ids.active other := by
  have number : (ids.assign key native).stable key = ids.numberOf key := by
    rw [assign_stable, if_pos rfl]
  rw [← number]
  unfold assign
  by_cases fresh : ids.stable key = 0
  · simp only [if_pos fresh]
    exact Function.update_apply ids.active native _ other
  · simp only [if_neg fresh]
    exact Function.update_apply ids.active native _ other

theorem assign_retired (native other : Nat) :
    (ids.assign key native).retired other =
      if other = native then 0 else ids.retired other := by
  unfold assign
  by_cases fresh : ids.stable key = 0
  · simp only [if_pos fresh]
    exact Function.update_apply ids.retired native 0 other
  · simp only [if_neg fresh]
    exact Function.update_apply ids.retired native 0 other

theorem assign_pending (native : Nat) : (ids.assign key native).pending = ids.pending := by
  unfold assign
  by_cases fresh : ids.stable key = 0
  · simp [if_pos fresh]
  · simp [if_neg fresh]

end

end

variable {key other : BreakpointKey}

theorem numberOf_of_stable (holds : ids.stable key ≠ 0) :
    ids.numberOf key = ids.stable key :=
  if_neg holds

theorem Sound.numberOf_ne_zero (sound : Sound pos ids) (key : BreakpointKey) :
    ids.numberOf key ≠ 0 := by
  unfold numberOf
  by_cases fresh : ids.stable key = 0
  · rw [if_pos fresh]
    exact Nat.ne_of_gt sound.positive
  · rw [if_neg fresh]
    exact fresh

theorem assign_next (ids : BreakpointIDs) (key : BreakpointKey) (native : Nat) :
    (ids.assign key native).next =
      if ids.stable key = 0 then ids.next + 1 else ids.next := by
  unfold assign
  by_cases fresh : ids.stable key = 0
  · simp [if_pos fresh]
  · simp [if_neg fresh]

theorem Sound.numberOf_lt (sound : Sound pos ids) (key : BreakpointKey) (native : Nat) :
    ids.numberOf key < (ids.assign key native).next := by
  rw [assign_next]
  unfold numberOf
  by_cases fresh : ids.stable key = 0
  · rw [if_pos fresh, if_pos fresh]
    exact Nat.lt_succ_self ids.next
  · rw [if_neg fresh, if_neg fresh]
    exact sound.below key

theorem Sound.numberOf_injective (sound : Sound pos ids)
    (same : ids.numberOf key = ids.stable other) : key = other := by
  unfold numberOf at same
  by_cases fresh : ids.stable key = 0
  · rw [if_pos fresh] at same
    exact absurd same (Nat.ne_of_gt (sound.below other))
  · rw [if_neg fresh] at same
    exact sound.injective key other fresh same

theorem assign_stable_of_ne_zero (key : BreakpointKey) (native : Nat)
    (holds : ids.stable other ≠ 0) :
    (ids.assign key native).stable other = ids.stable other := by
  rw [assign_stable]
  by_cases same : other = key
  · subst same
    rw [if_pos rfl, numberOf_of_stable holds]
  · rw [if_neg same]

section

variable (sound : Sound pos ids)
include sound

theorem Sound.assign (owner : pos native = key) :
    Sound pos (ids.assign key native) := by
  have grown : ids.next ≤ (ids.assign key native).next := by
    rw [assign_next]
    split
    · exact Nat.le_succ ids.next
    · exact Nat.le_refl ids.next
  refine ⟨Nat.lt_of_lt_of_le sound.positive grown, ?_, ?_, ?_, ?_⟩
  · intro other
    rw [assign_stable]
    by_cases same : other = key
    · rw [if_pos same]
      exact sound.numberOf_lt key native
    · rw [if_neg same]
      exact Nat.lt_of_lt_of_le (sound.below other) grown
  · intro first second holds same
    rw [assign_stable] at holds same
    rw [assign_stable] at same
    by_cases firstKey : first = key
    · by_cases secondKey : second = key
      · rw [firstKey, secondKey]
      · rw [if_pos firstKey, if_neg secondKey] at same
        rw [firstKey]
        exact sound.numberOf_injective same
    · rw [if_neg firstKey] at holds same
      by_cases secondKey : second = key
      · rw [if_pos secondKey] at same
        rw [secondKey]
        exact (sound.numberOf_injective same.symm).symm
      · rw [if_neg secondKey] at same
        exact sound.injective first second holds same
  · intro other holds
    rw [assign_active] at holds ⊢
    by_cases same : other = native
    · rw [if_pos same, same, owner, assign_stable, if_pos rfl]
    rw [if_neg same] at holds ⊢
    have before := sound.active other holds
    rw [assign_stable_of_ne_zero key native (before ▸ holds)]
    exact before
  · intro other holds
    rw [assign_retired] at holds ⊢
    by_cases same : other = native
    · rw [if_pos same] at holds
      exact absurd rfl holds
    rw [if_neg same] at holds ⊢
    have before := sound.retired other holds
    rw [assign_stable_of_ne_zero key native (before ▸ holds)]
    exact before

theorem Sound.active_assign {other : Nat} (holds : other = native ∨ ids.active other ≠ 0) :
    (ids.assign key native).active other ≠ 0 := by
  rw [assign_active]
  by_cases same : other = native
  · rw [if_pos same]
    exact sound.numberOf_ne_zero key
  · rw [if_neg same]
    exact holds.resolve_left same

theorem Sound.knows_assign {other : Nat}
    (known : ids.Knows other) : (ids.assign key native).Knows other := by
  by_cases same : other = native
  · exact .inl (sound.active_assign (.inl same))
  rcases known with isActive | isRetired
  · exact .inl (sound.active_assign (.inr isActive))
  · right
    rw [assign_retired, if_neg same]
    exact isRetired

end

/-- What one replacement may do to the tables it has already retired. -/
structure Grows (pos : Nat → BreakpointKey) (ids after : BreakpointIDs) :
    Prop where
  sound : Sound pos after
  pending : after.pending = ids.pending
  stable : ∀ key, ids.stable key ≠ 0 → after.stable key = ids.stable key
  knows : ∀ native, ids.Knows native → after.Knows native
  active : ∀ native, ids.active native ≠ 0 → after.active native ≠ 0
  retired : ∀ native, after.retired native ≠ 0 → ids.retired native ≠ 0

/-- The results answer the requests in order, and a native number always stands for the
same requested position. -/
def Answers (pos : Nat → BreakpointKey) (source : String)
    (requests : List BreakpointRequest) (results : List Breakpoint) : Prop :=
  List.Forall₂ (fun req result =>
    pos result.id = ⟨source, req.position⟩) requests results

variable {requests : List BreakpointRequest} {results : List Breakpoint}

section

variable (answers : Answers pos source requests results) (sound : Sound pos ids)
include answers sound

theorem assignAll_grows :
    ∃ after, assignAll source requests results ids = .ok after ∧
      Grows pos ids after ∧ ∀ result ∈ results, after.active result.id ≠ 0 := by
  induction answers generalizing ids with
  | nil =>
    refine ⟨ids, rfl, ⟨sound, rfl, fun _ _ => rfl, fun _ known => known,
      fun _ holds => holds, fun _ holds => holds⟩, ?_⟩
    intro result member
    cases member
  | @cons req result requests results owner _ ih =>
    have assigned := sound.assign owner
    obtain ⟨after, executed, grows, answered⟩ := ih assigned
    refine ⟨after, executed, ⟨grows.sound, ?_, ?_, ?_, ?_, ?_⟩, ?_⟩
    · rw [grows.pending, assign_pending]
    · intro key holds
      have kept := assign_stable_of_ne_zero ⟨source, req.position⟩ result.id holds
      rw [grows.stable key (kept ▸ holds), kept]
    · intro native known
      exact grows.knows native (sound.knows_assign known)
    · intro native holds
      exact grows.active native (sound.active_assign (.inr holds))
    · intro native holds
      have before := grows.retired native holds
      rw [assign_retired] at before
      by_cases same : native = result.id
      · rw [if_pos same] at before
        exact absurd rfl before
      · rw [if_neg same] at before
        exact before
    · intro other member
      rcases mem_cons.mp member with rfl | further
      · exact grows.active _ (sound.active_assign (.inl rfl))
      · exact answered other further

/-- A replacement that answers its requests is carried out, and keeps what a command
whose stop is still to be processed may report. -/
theorem replace_spec :
    ∃ after, ids.replace source requests results = .ok after ∧
      Sound pos after ∧ after.pending = ids.pending ∧
      (∀ result ∈ results, after.active result.id ≠ 0) ∧
      (∀ key, ids.stable key ≠ 0 → after.stable key = ids.stable key) ∧
      (ids.pending ≠ 0 → ∀ native, ids.Knows native → after.Knows native) ∧
      (ids.pending = 0 → (∀ native, ids.retired native = 0) →
        ∀ native, after.retired native = 0) := by
  obtain ⟨after, executed, grows, answered⟩ := assignAll_grows answers sound.retire
  refine ⟨after, executed, grows.sound, grows.pending, answered, grows.stable, ?_, ?_⟩
  · intro outstanding native known
    apply grows.knows native
    right
    simp only [retire]
    by_cases isActive : ids.active native = 0
    · rw [if_neg fun moved => moved.2 isActive]
      exact known.resolve_left fun holds => holds isActive
    · rw [if_pos ⟨outstanding, isActive⟩]
      exact isActive
  · intro none empty native
    by_contra holds
    have before := grows.retired native holds
    simp only [retire] at before
    rw [if_neg fun moved => moved.1 none] at before
    exact before (empty native)

end

section

variable (sound : Sound pos ids)
include sound

theorem Sound.commandStarted :
    Sound pos ids.commandStarted :=
  ⟨sound.positive, sound.below, sound.injective, sound.active, sound.retired⟩

theorem Sound.commandStopped : Sound pos ids.commandStopped := by
  refine ⟨sound.positive, sound.below, sound.injective, sound.active, ?_⟩
  intro native holds
  simp only [BreakpointIDs.commandStopped] at holds ⊢
  by_cases last : ids.pending - 1 = 0
  · rw [if_pos last] at holds
    exact absurd rfl holds
  · rw [if_neg last] at holds ⊢
    exact sound.retired native holds

theorem Sound.finish : Sound pos ids.finish := by
  refine ⟨sound.positive, sound.below, sound.injective, ?_, ?_⟩
  · intro native holds
    exact absurd rfl holds
  · intro native holds
    exact absurd rfl holds

end

end BreakpointIDs

/-! ## Histories -/

/-- The operations on the tables; `finish` is how a terminal event is processed. -/
inductive IDOperation where
  | replace (source : String) (requests : List BreakpointRequest) (results : List Breakpoint)
  | commandStarted
  | commandStopped
  | finish

/-- The tables with the number of commands accepted and of commands whose stop, or
terminal event, has been processed.  Stops are processed in the order in which their
commands were accepted, so that command `n` is processed once more than `n` stops
are. -/
structure IDHistory where
  ids : BreakpointIDs
  accepted : Nat
  processed : Nat

namespace IDHistory

open BreakpointIDs

def new : IDHistory :=
  ⟨.new, 0, 0⟩

def step (history : IDHistory) : IDOperation → Option IDHistory
  | .replace source requests results =>
    match history.ids.replace source requests results with
    | .error _ => none
    | .ok replaced => some { history with ids := replaced }
  | .commandStarted =>
    some { history with
      ids := history.ids.commandStarted
      accepted := history.accepted + 1 }
  | .commandStopped =>
    some { history with
      ids := history.ids.commandStopped
      processed := history.processed + 1 }
  | .finish =>
    some { history with
      ids := history.ids.finish
      processed := history.accepted }

/-- What the tables rely on: a replacement answers its requests in order with pairwise
distinct native numbers, each of which only ever stands for one requested position; a
stop belongs to an accepted command; and a terminal event is the last thing a session
reports, so that every stop before it has been processed. -/
def Lawful (pos : Nat → BreakpointKey) (history : IDHistory) :
    IDOperation → Prop
  | .replace source requests results =>
    (results.map Breakpoint.id).Nodup ∧ Answers pos source requests results
  | .commandStarted => True
  | .commandStopped => history.processed < history.accepted
  | .finish => history.accepted ≤ history.processed + 1

structure Invariant (pos : Nat → BreakpointKey) (history : IDHistory) : Prop where
  sound : Sound pos history.ids
  counted : history.processed + history.ids.pending = history.accepted
  settled : history.ids.pending = 0 → ∀ native, history.ids.retired native = 0

variable {command native : Nat} {requests : List BreakpointRequest} {results : List Breakpoint}
  {pos : Nat → BreakpointKey} {history next later : IDHistory}
variable {op : IDOperation}

theorem invariant_new : Invariant pos new :=
  ⟨sound_new, rfl, fun _ _ => rfl⟩

theorem Invariant.step (invariant : Invariant pos history)
    (lawful : history.Lawful pos op) (taken : history.step op = some next) :
    Invariant pos next := by
  obtain ⟨sound, counted, settled⟩ := invariant
  cases op with
  | replace =>
    obtain ⟨after, executed, soundAfter, pending, _, _, _, empty⟩ :=
      replace_spec lawful.2 sound
    simp only [IDHistory.step, executed] at taken
    cases taken
    refine ⟨soundAfter, ?_, ?_⟩
    · rw [pending]
      exact counted
    · intro none
      rw [pending] at none
      exact empty none (settled none)
  | commandStarted =>
    cases taken
    refine ⟨sound.commandStarted, ?_, ?_⟩
    · show history.processed + (history.ids.pending + 1) = history.accepted + 1
      omega
    · intro none
      exact absurd none (Nat.succ_ne_zero _)
  | commandStopped =>
    cases taken
    have outstanding : history.processed < history.accepted := lawful
    refine ⟨sound.commandStopped, ?_, ?_⟩
    · show history.processed + 1 + (history.ids.pending - 1) = history.accepted
      omega
    intro none native
    have last : history.ids.pending - 1 = 0 := none
    show (if history.ids.pending - 1 = 0 then fun _ => 0 else history.ids.retired) native = 0
    rw [if_pos last]
  | finish =>
    cases taken
    exact ⟨sound.finish, rfl, fun _ _ => rfl⟩

theorem invariant_run (run : Run IDHistory.step (Lawful pos) new history) :
    Invariant pos history :=
  run.invariant invariant_new fun _ _ _ held lawful taken => held.step lawful taken

section

variable {key : BreakpointKey} (invariant : Invariant pos history)
  (lawful : history.Lawful pos op) (taken : history.step op = some next)
include invariant lawful taken

theorem stable_step (holds : history.ids.stable key ≠ 0) :
    next.ids.stable key = history.ids.stable key := by
  cases op with
  | replace =>
    obtain ⟨after, executed, _, _, _, stable, _, _⟩ :=
      replace_spec lawful.2 invariant.sound
    simp only [IDHistory.step, executed] at taken
    cases taken
    exact stable key holds
  | _ =>
    cases taken
    rfl

/-- As long as a command's stop has not been processed, no step forgets a native
number. -/
theorem knows_step (accepted : command < history.accepted) (outstanding : next.processed ≤ command)
    (known : history.ids.Knows native) :
    next.ids.Knows native ∧ command < next.accepted := by
  have counted := invariant.counted
  cases op with
  | replace =>
    obtain ⟨after, executed, _, _, _, _, knows, _⟩ :=
      replace_spec lawful.2 invariant.sound
    simp only [IDHistory.step, executed] at taken
    cases taken
    have waiting : history.processed ≤ command := outstanding
    exact ⟨knows (by omega) native known, accepted⟩
  | commandStarted =>
    cases taken
    exact ⟨known, Nat.lt_succ_of_lt accepted⟩
  | commandStopped =>
    cases taken
    have waiting : history.processed + 1 ≤ command := outstanding
    refine ⟨?_, accepted⟩
    rcases known with isActive | isRetired
    · exact .inl isActive
    right
    show (if history.ids.pending - 1 = 0 then fun _ => 0 else history.ids.retired) native ≠ 0
    rw [if_neg (by omega)]
    exact isRetired
  | finish =>
    cases taken
    have waiting : history.accepted ≤ command := outstanding
    omega

end

theorem processed_step (taken : history.step op = some next)
    (invariant : Invariant pos history) : history.processed ≤ next.processed := by
  have counted := invariant.counted
  cases op with
  | replace =>
    simp only [IDHistory.step] at taken
    split at taken
    · cases taken
    · cases taken
      exact Nat.le_refl _
  | commandStarted =>
    cases taken
    exact Nat.le_refl _
  | commandStopped =>
    cases taken
    exact Nat.le_succ _
  | finish =>
    cases taken
    show history.processed ≤ history.accepted
    omega

theorem accepted_step (taken : history.step op = some next) :
    history.accepted ≤ next.accepted := by
  cases op with
  | replace =>
    simp only [IDHistory.step] at taken
    split at taken
    · cases taken
    · cases taken
      exact Nat.le_refl _
  | commandStarted =>
    cases taken
    exact Nat.le_succ _
  | commandStopped | finish =>
    cases taken
    exact Nat.le_refl _

theorem knows_run (invariant : Invariant pos history)
    (run : Run IDHistory.step (Lawful pos) history later)
    (accepted : command < history.accepted) (known : history.ids.Knows native)
    (outstanding : later.processed ≤ command) :
    later.ids.Knows native := by
  -- the induction follows the run, and the stop is outstanding in every state of it
  have kept : Invariant pos later ∧
      (later.processed ≤ command → later.ids.Knows native ∧ command < later.accepted) := by
    apply run.invariant
    · exact ⟨invariant, fun _ => ⟨known, accepted⟩⟩
    intro state op next held lawful taken
    refine ⟨held.1.step lawful taken, ?_⟩
    intro waiting
    have before := Nat.le_trans (processed_step taken held.1) waiting
    obtain ⟨knows, stays⟩ := held.2 before
    exact knows_step held.1 lawful taken stays waiting knows
  exact (kept.2 outstanding).1

/-- What a client and the event translation rely on in one state. -/
structure Identified (pos : Nat → BreakpointKey) (history : IDHistory) : Prop where
  distinct : ∀ key other, history.ids.stable key ≠ 0 →
    history.ids.stable key = history.ids.stable other → key = other
  pending : history.processed + history.ids.pending = history.accepted
  settled : history.processed = history.accepted → ∀ native, history.ids.retired native = 0
  active : ∀ native, history.ids.active native ≠ 0 →
    history.ids.id native = history.ids.stable (pos native) ∧ history.ids.id native ≠ 0

/-- A replacement that answers its requests is carried out and gives every result the
number of its requested position. -/
theorem Invariant.replaces (invariant : Invariant pos history)
    (lawful : history.Lawful pos (.replace source requests results)) :
    ∃ next, history.step (.replace source requests results) = some next ∧
      List.Forall₂ (fun req result =>
        next.ids.id result.id = next.ids.stable ⟨source, req.position⟩ ∧
          next.ids.id result.id ≠ 0) requests results := by
  obtain ⟨after, executed, sound, _, answered, _, _, _⟩ :=
    replace_spec lawful.2 invariant.sound
  refine ⟨{ history with ids := after }, by simp only [IDHistory.step, executed], ?_⟩
  refine forall₂_iff_zip.mpr ⟨lawful.2.length_eq, ?_⟩
  intro req result member
  have owner := (forall₂_iff_zip.mp lawful.2).2 member
  have isActive := answered result (of_mem_zip member).2
  rw [← owner]
  exact sound.id_of_knows (.inl isActive)

/-- Every history of the tables: the number of a requested position never changes and
belongs to it alone, the counter is the number of commands whose stop is outstanding,
and what was active at or after the acceptance of such a command still has its number. -/
theorem breakpoint_identities (reached : Run IDHistory.step (Lawful pos) new history) :
    Identified pos history ∧
      (∀ source requests results,
        history.Lawful pos (.replace source requests results) →
          ∃ next, history.step (.replace source requests results) = some next ∧
            List.Forall₂ (fun req result =>
              next.ids.id result.id = next.ids.stable ⟨source, req.position⟩ ∧
                next.ids.id result.id ≠ 0) requests results) ∧
      (∀ later, Run IDHistory.step (Lawful pos) history later →
        ∀ key, history.ids.stable key ≠ 0 → later.ids.stable key = history.ids.stable key) ∧
      ∀ accepting, history.step .commandStarted = some accepting →
        ∀ middle, Run IDHistory.step (Lawful pos) accepting middle →
        ∀ later, Run IDHistory.step (Lawful pos) middle later →
        ∀ native, middle.ids.active native ≠ 0 → later.processed ≤ history.accepted →
          later.ids.id native = later.ids.stable (pos native) ∧ later.ids.id native ≠ 0 := by
  have invariant := invariant_run reached
  refine ⟨⟨invariant.sound.injective, invariant.counted, ?_, ?_⟩, ?_, ?_, ?_⟩
  · intro all
    have counted := invariant.counted
    exact invariant.settled (by omega)
  · intro native isActive
    exact invariant.sound.id_of_knows (Or.inl isActive)
  · intro source requests results lawful
    exact invariant.replaces lawful
  · intro later run key holds
    have kept : Invariant pos later ∧ later.ids.stable key = history.ids.stable key := by
      apply run.invariant
      · exact ⟨invariant, rfl⟩
      intro state op next held lawful taken
      refine ⟨held.1.step lawful taken, ?_⟩
      rw [stable_step held.1 lawful taken (held.2 ▸ holds)]
      exact held.2
    exact kept.2
  · intro accepting taken middle first later second native isActive outstanding
    have begun : Invariant pos accepting := by
      refine invariant.step ?_ taken
      trivial
    have accepted : history.accepted < accepting.accepted := by
      cases taken
      exact Nat.lt_succ_self _
    have grown : Invariant pos middle ∧ history.accepted < middle.accepted := by
      apply first.invariant
      · exact ⟨begun, accepted⟩
      · intro state op next held lawful step
        exact ⟨held.1.step lawful step, Nat.lt_of_lt_of_le held.2 (accepted_step step)⟩
    have known := knows_run grown.1 second grown.2 (Or.inl isActive) outstanding
    have ended : Invariant pos later :=
      second.invariant grown.1 fun _ _ _ held lawful step => held.step lawful step
    exact ended.sound.id_of_knows known

/-- One breakpoint on the third line, which native number seven stands for. -/
def thirdLine : BreakpointKey :=
  ⟨"/query.fql", ⟨3, 0⟩⟩

def boundAtThirdLine : Breakpoint :=
  ⟨7, true, ⟨"/query.fql", ⟨3, 0⟩⟩, ⟨"/query.fql", ⟨3, 5⟩⟩⟩

/-- The breakpoint is set, a command is accepted, and the set is cleared while the
command runs: the retired number still has its identity. -/
theorem breakpoint_identities_retired :
    ∃ history accepting later,
      Run IDHistory.step (Lawful fun _ => thirdLine) new history ∧
        history.step .commandStarted = some accepting ∧
        Run IDHistory.step (Lawful fun _ => thirdLine) accepting later ∧
        later.ids.active 7 = 0 ∧ later.ids.id 7 = later.ids.stable thirdLine ∧
          later.ids.id 7 ≠ 0 := by
  have first : Run IDHistory.step (Lawful fun _ => thirdLine) new
      ⟨BreakpointIDs.new.retire.assign thirdLine 7, 0, 0⟩ :=
    Run.next (.replace "/query.fql" [⟨⟨3, 0⟩⟩] [boundAtThirdLine]) Run.start
      ⟨by decide, .cons rfl .nil⟩ rfl
  have second : Run IDHistory.step (Lawful fun _ => thirdLine)
      ⟨(BreakpointIDs.new.retire.assign thirdLine 7).commandStarted, 1, 0⟩
      ⟨(BreakpointIDs.new.retire.assign thirdLine 7).commandStarted.retire, 1, 0⟩ :=
    Run.next (.replace "/query.fql" [] []) Run.start ⟨by decide, .nil⟩ rfl
  obtain ⟨_, _, _, resolves⟩ := breakpoint_identities first
  refine ⟨_, _, _, first, rfl, second, rfl, ?_⟩
  exact resolves _ rfl _ Run.start _ second 7 (by decide) (Nat.le_refl 0)

end IDHistory

end Ferretd.Dap

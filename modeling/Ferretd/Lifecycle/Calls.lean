import Ferretd.Library.Machine
import Ferretd.Lifecycle

/-!
# The callers of a gate

Any number of creators, closers and waiters use one gate, in any interleaving.
-/

namespace Ferretd.Gate

open Library List

inductive OwnerPC where
  | absent
  | owning
  | waiting (captured : Option Nat)
  | joined
  | done
deriving DecidableEq

/-- A call of `WaitClose`: the error of its context, and its result with whether the
operation was finished at its last look. -/
structure Waiter where
  ctxErr : GoError
  answer : Option (GoError × Bool)
deriving DecidableEq

/-- A gate and its callers.  The numbers count the creators admitted and ended, those
admitted after a `BeginClose` had returned true, the calls of `BeginClose` and how many of
them returned true. -/
structure Calls where
  gate : Gate
  owner : OwnerPC
  waiters : List Waiter
  admitted : Nat
  ended : Nat
  late : Nat
  closes : Nat
  owned : Nat
  panicked : Bool

inductive Call where
  | beginCreate
  | endCreate
  | beginClose
  | waitForCreates
  | createsDone
  | finishClose (err : GoError)
  | waitClose (ctxErr : GoError)
  | cancel (waiter : Nat) (err : GoError)
  | wake (waiter : Nat)

namespace Calls

def new : Calls :=
  ⟨.new, .absent, [], 0, 0, 0, 0, 0, false⟩

def panic (calls : Calls) : Calls :=
  { calls with panicked := true }

/-- A look at the close operation: `none` where the waiter has to go on waiting. -/
def look (calls : Calls) (seen ctxErr : GoError) : Except Panic Waiter :=
  (calls.gate.waitClose seen).map fun found =>
    ⟨ctxErr, found.map fun err => (err, calls.gate.close.finished)⟩

def step (calls : Calls) : Call → Option Calls
  | .beginCreate =>
    let begun := calls.gate.beginCreate
    some { calls with
      gate := begun.2
      admitted := calls.admitted + begun.1.toNat
      late := calls.late + (begun.1 && decide (calls.owned ≠ 0)).toNat }
  | .endCreate =>
    if calls.ended < calls.admitted then
      match calls.gate.endCreate with
      | .error _ => some calls.panic
      | .ok (_, gate) => some { calls with gate := gate, ended := calls.ended + 1 }
    else
      none
  | .beginClose =>
    let begun := calls.gate.beginClose
    some { calls with
      gate := begun.2
      owner := if begun.1 then .owning else calls.owner
      closes := calls.closes + 1
      owned := calls.owned + begun.1.toNat }
  | .waitForCreates =>
    match calls.owner with
    | .owning =>
      match calls.gate.waitForCreates with
      | .error _ => some calls.panic
      | .ok captured => some { calls with owner := .waiting captured }
    | _ => none
  | .createsDone =>
    match calls.owner with
    | .waiting captured =>
      if calls.gate.createsSignalled captured then
        some { calls with owner := .joined }
      else
        none
    | _ => none
  | .finishClose err =>
    match calls.owner with
    | .joined =>
      match calls.gate.finishClose err with
      | .error _ => some calls.panic
      | .ok gate => some { calls with gate := gate, owner := .done }
    | _ => none
  | .waitClose ctxErr =>
    if calls.gate.close.started then
      -- the first look does not ask the context
      match calls.look [] ctxErr with
      | .error _ => some calls.panic
      | .ok waiter => some { calls with waiters := calls.waiters ++ [waiter] }
    else
      none
  | .cancel index err =>
    match calls.waiters[index]? with
    | some ⟨[], none⟩ => some { calls with waiters := calls.waiters.set index ⟨err, none⟩ }
    | _ => none
  | .wake index =>
    match calls.waiters[index]? with
    | some ⟨ctxErr, none⟩ =>
      if calls.gate.close.finished || decide (ctxErr ≠ []) then
        match calls.look ctxErr ctxErr with
        | .error _ => some calls.panic
        | .ok waiter => some { calls with waiters := calls.waiters.set index waiter }
      else
        none
    | _ => none

/-- Where the owner is, as the gate shows it. -/
def Stands (gate : Gate) : OwnerPC → Prop
  | .absent => gate.close.state = .idle
  | .owning => gate.close.state = .started
  | .waiting captured => gate.close.state = .started ∧ gate.Awaits captured
  | .joined => gate.close.state = .started ∧ gate.creating = 0
  | .done => gate.close.state = .finished

/-- What a waiter may have been told: the published result, or, where none was published
at its last look, the error of its context. -/
def Told (close : CloseOperation) (waiter : Waiter) : Prop :=
  ∀ err published, waiter.answer = some (err, published) →
    published = true ∧ close = ⟨.finished, err⟩ ∨
      published = false ∧ waiter.ctxErr ≠ [] ∧ err = waiter.ctxErr

structure Sound (calls : Calls) : Prop where
  wellFormed : calls.gate.WellFormed
  stands : Stands calls.gate calls.owner
  told : ∀ waiter ∈ calls.waiters, calls.gate.close.state ≠ .idle ∧ Told calls.gate.close waiter
  counted : calls.admitted = calls.ended + calls.gate.creating
  begun : calls.closes = 0 ↔ calls.gate.close.state = .idle
  owned : calls.owned = if calls.gate.close.state = .idle then 0 else 1
  late : calls.late = 0
  calm : calls.panicked = false

theorem sound_new : Sound new := by
  refine ⟨wellFormed_new, rfl, ?_, rfl, by decide, rfl, rfl, rfl⟩
  simp [new]

variable {calls next : Calls} {gate : Gate} {pc : OwnerPC} {seen ctxErr : GoError}

theorem Stands.keep (stands : Stands calls.gate pc)
    (evolves : calls.gate.Evolves gate) (same : gate.close = calls.gate.close)
    (wellFormed : gate.WellFormed) : Stands gate pc := by
  cases pc with
  | absent | owning | done => exact (congrArg CloseOperation.state same).trans stands
  | waiting captured => exact ⟨same ▸ stands.1, stands.2.evolve evolves wellFormed⟩
  | joined =>
    have fewer := evolves.creating (by simp [stands.1])
    exact ⟨same ▸ stands.1, by have := stands.2; omega⟩

theorem Stands.begun (stands : Stands gate pc) (present : pc ≠ .absent) :
    gate.close.state ≠ .idle := by
  cases pc with
  | absent => exact absurd rfl present
  | owning | done => simp [show gate.close.state = _ from stands]
  | waiting | joined => simp [stands.1]

theorem look_eq (begun : calls.gate.close.state ≠ .idle) :
    calls.look seen ctxErr = .ok ⟨ctxErr,
      if calls.gate.close.state = .finished then some (calls.gate.close.err, true)
      else if seen = [] then none else some (seen, false)⟩ := by
  unfold look waitClose CloseOperation.wait
  cases state : calls.gate.close.state with
  | idle => exact absurd state begun
  | started => by_cases live : seen = [] <;> simp [live, Except.map, CloseOperation.finished, state]
  | finished => simp [Except.map, CloseOperation.finished, state]

theorem told_of_look {waiter : Waiter}
    (begun : calls.gate.close.state ≠ .idle) (own : seen = [] ∨ seen = ctxErr)
    (looked : calls.look seen ctxErr = .ok waiter) : Told calls.gate.close waiter := by
  rw [look_eq begun] at looked
  cases looked
  intro err published answered
  dsimp only at answered ⊢
  split at answered
  next finished =>
    cases answered
    exact .inl ⟨rfl, by rw [← finished]⟩
  next =>
    split at answered
    · cases answered
    next done =>
      cases answered
      obtain rfl := own.resolve_left done
      exact .inr ⟨rfl, done, rfl⟩

namespace Sound

section

variable (sound : Sound calls)
include sound

theorem beginCreate (taken : calls.step .beginCreate = some next) :
    Sound next := by
  obtain rfl := Option.some.inj taken
  by_cases idle : calls.gate.close.state = .idle
  · obtain ⟨admits, creating, same⟩ := beginCreate_of_accepting idle
    have none : calls.owned = 0 := by rw [sound.owned, if_pos idle]
    constructor
    · exact sound.wellFormed.beginCreate
    · exact sound.stands.keep evolves_beginCreate same sound.wellFormed.beginCreate
    · simpa only [same] using sound.told
    · have counted := sound.counted
      simp only [admits, creating, Bool.toNat_true]
      omega
    · simpa only [same] using sound.begun
    · simpa only [same] using sound.owned
    · simp [sound.late, none]
    · exact sound.calm
  · simp only [beginCreate_of_started idle, Bool.toNat_false, Bool.false_and, Nat.add_zero]
    exact sound

theorem endCreate (taken : calls.step .endCreate = some next) :
    Sound next := by
  simp only [step] at taken
  split at taken
  next active =>
    have counted := sound.counted
    split at taken
    next failed =>
      unfold Gate.endCreate at failed
      rw [if_neg (by omega)] at failed
      split at failed <;> cases failed
    next last gate ended =>
      cases taken
      obtain ⟨creating, same, -⟩ := endCreate_ok ended
      have wellFormed := sound.wellFormed.endCreate ended
      constructor
      · exact wellFormed
      · exact sound.stands.keep (evolves_endCreate ended) same wellFormed
      · simpa only [same] using sound.told
      · dsimp only
        omega
      · simpa only [same] using sound.begun
      · simpa only [same] using sound.owned
      · exact sound.late
      · exact sound.calm
  · cases taken

theorem beginClose (taken : calls.step .beginClose = some next) :
    Sound next := by
  obtain rfl := Option.some.inj taken
  have wellFormed := sound.wellFormed.beginClose
  by_cases idle : calls.gate.close.state = .idle
  · rw [beginClose_of_accepting idle] at wellFormed ⊢
    have owned := sound.owned
    rw [if_pos idle] at owned
    refine ⟨wellFormed, rfl, ?_, sound.counted, by simp, by simp [owned], sound.late, sound.calm⟩
    intro waiter member
    exact absurd idle (sound.told waiter member).1
  · simp only [beginClose_of_started idle, Bool.toNat_false, Nat.add_zero, Bool.false_eq_true,
      if_false]
    exact { sound with begun := by simpa using idle }

theorem waitForCreates (taken : calls.step .waitForCreates = some next) :
    Sound next := by
  have stands := sound.stands
  simp only [step] at taken
  split at taken
  next owner =>
    rw [owner] at stands
    have begun : calls.gate.close.state ≠ .idle := stands.begun (by simp)
    rw [Gate.waitForCreates, if_pos (by simpa using begun)] at taken
    cases taken
    exact { sound with stands := ⟨stands, awaits_waitForCreates sound.wellFormed begun⟩ }
  · cases taken

theorem createsDone (taken : calls.step .createsDone = some next) :
    Sound next := by
  have stands := sound.stands
  simp only [step] at taken
  split at taken
  next captured owner =>
    rw [owner] at stands
    obtain ⟨signalled, ⟨⟩⟩ := Option.ite_none_right_eq_some.mp taken
    exact { sound with stands := ⟨stands.1, stands.2.signalled signalled⟩ }
  · cases taken

end

theorem finishClose {err : GoError} (sound : Sound calls)
    (taken : calls.step (.finishClose err) = some next) : Sound next := by
  have stands := sound.stands
  simp only [step] at taken
  split at taken
  next owner =>
    rw [owner] at stands
    have finishes : calls.gate.finishClose err =
        .ok { calls.gate with close := ⟨.finished, err⟩ } := by
      simp [Gate.finishClose, stands.2, CloseOperation.finish_of_started err stands.1, Except.map]
    rw [finishes] at taken
    cases taken
    have owned := sound.owned
    have begun := sound.begun
    rw [stands.1] at owned begun
    refine ⟨sound.wellFormed.finishClose finishes, rfl, ?_, sound.counted, ?_, owned, sound.late,
      sound.calm⟩
    · intro waiter member
      refine ⟨by simp, fun err published answered => ?_⟩
      rcases (sound.told waiter member).2 err published answered with told | told
      · have started := stands.1
        rw [told.2] at started
        cases started
      · exact .inr told
    · simpa using begun
  · cases taken

theorem looks {waiters : List Waiter} (sound : Sound calls)
    (told : ∀ waiter ∈ waiters, waiter ∈ calls.waiters ∨
      calls.gate.close.state ≠ .idle ∧ Told calls.gate.close waiter) :
    Sound { calls with waiters := waiters } := by
  refine { sound with told := ?_ }
  intro waiter member
  rcases told waiter member with before | fresh
  · exact sound.told waiter before
  · exact fresh

theorem step {call : Call} (sound : Sound calls) (taken : calls.step call = some next) :
    Sound next := by
  cases call with
  | beginCreate => exact sound.beginCreate taken
  | endCreate => exact sound.endCreate taken
  | beginClose => exact sound.beginClose taken
  | waitForCreates => exact sound.waitForCreates taken
  | createsDone => exact sound.createsDone taken
  | finishClose => exact sound.finishClose taken
  | waitClose ctxErr =>
    simp only [Calls.step] at taken
    split at taken
    next started =>
      have begun : calls.gate.close.state ≠ .idle := by simpa using started
      split at taken
      next failed =>
        rw [look_eq begun] at failed
        cases failed
      next waiter looked =>
        cases taken
        refine sound.looks fun other member => ?_
        rcases mem_append.mp member with before | fresh
        · exact .inl before
        · cases mem_singleton.mp fresh
          exact .inr ⟨begun, told_of_look begun (.inl rfl) looked⟩
    · cases taken
  | cancel index err =>
    simp only [Calls.step] at taken
    split at taken
    next present =>
      cases taken
      refine sound.looks fun other member => ?_
      rcases mem_or_eq_of_mem_set member with before | rfl
      · exact .inl before
      · exact .inr ⟨(sound.told _ (mem_of_getElem? present)).1, by rintro _ _ ⟨⟩⟩
    · cases taken
  | wake index =>
    simp only [Calls.step] at taken
    split at taken
    next ctxErr present =>
      have begun := (sound.told _ (mem_of_getElem? present)).1
      split at taken
      · split at taken
        next failed =>
          rw [look_eq begun] at failed
          cases failed
        next waiter looked =>
          cases taken
          refine sound.looks fun other member => ?_
          rcases mem_or_eq_of_mem_set member with before | rfl
          · exact .inl before
          · exact .inr ⟨begun, told_of_look begun (.inr rfl) looked⟩
      · cases taken
    · cases taken

end Sound

end Calls

end Ferretd.Gate

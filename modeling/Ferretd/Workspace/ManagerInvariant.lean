import Ferretd.Workspace.ManagerEffects
import Ferretd.Library.Tally

/-!
# The invariant of the workspace manager

Every open operation that is not done is owned by exactly one call of `Open`, so an
entry is published once, and an entry that is closing never becomes active again.
-/

namespace Ferretd.Workspaces

open Library List

/-! ## One entry -/

structure EntrySound (entry : Entry) : Prop where
  active : entry.state = .active ↔ entry.close.state = .idle
  idle : entry.close.state = .idle → entry.worker = none
  started : entry.close.state = .started → ∃ pc, entry.worker = some pc ∧ pc ≠ .delete
  finished :
    entry.close.state = .finished →
      entry.worker = some .delete ∨ entry.worker = none ∧ entry.listed = false
  listed : entry.listed = false → entry.close.state = .finished

variable {next : OpenOperation}

namespace EntrySound

variable {entry : Entry}

theorem new : EntrySound .new := by
  refine ⟨⟨fun _ => rfl, fun _ => rfl⟩, fun _ => rfl, ?_, ?_, ?_⟩
  · nofun
  · nofun
  · nofun

section

variable {pc pc' : ClosePC} {result : GoError} {m : Manager} {op : OpenOperation}
  {reply : Reply} {watchers : List Watcher} (sound : EntrySound entry)
include sound

theorem started_of_worker (working : entry.worker = some pc)
    (unfinished : pc ≠ .delete) : entry.close.state = .started := by
  cases state : entry.close.state with
  | idle =>
    have none := sound.idle state
    simp [working] at none
  | started => rfl
  | finished =>
    rcases sound.finished state with last | ⟨none, _⟩
    · rw [working] at last
      cases last
      exact absurd rfl unfinished
    · simp [working] at none

theorem finished_of_worker (working : entry.worker = some .delete) :
    entry.close.state = .finished := by
  cases state : entry.close.state with
  | idle =>
    have none := sound.idle state
    simp [working] at none
  | started =>
    obtain ⟨pc, same, unfinished⟩ := sound.started state
    rw [working] at same
    cases same
    exact absurd rfl unfinished
  | finished => rfl

theorem closing_of_busy (busy : entry.close.state ≠ .idle) : entry.state = .closing := by
  cases state : entry.state with
  | active => exact absurd (sound.active.1 state) busy
  | closing => rfl

theorem goOn (working : entry.worker = some pc) (before : pc ≠ .delete) (after : pc' ≠ .delete) :
    EntrySound { entry with worker := some pc' } := by
  have started := sound.started_of_worker working before
  refine ⟨sound.active, ?_, fun _ => ⟨pc', rfl, after⟩, ?_, sound.listed⟩
  · intro idle
    cases started.symm.trans idle
  · intro finished
    cases started.symm.trans finished

theorem takeOver (active : entry.state = .active) : EntrySound { entry with
      state := .closing
      close := entry.close.begin.2
      worker := some .stopWatcher } := by
  have idle := sound.active.1 active
  rw [CloseOperation.begin_of_idle idle]
  refine ⟨by simp, by simp, fun _ => ⟨.stopWatcher, rfl, by simp⟩, by simp, ?_⟩
  intro unlisted
  cases idle.symm.trans (sound.listed unlisted)

theorem finish {close : CloseOperation} (working : entry.worker = some (.finish result))
    (finished : entry.close.finish result = .ok close) :
    EntrySound { entry with close := close, worker := some .delete } := by
  have started := sound.started_of_worker working (by simp)
  have closing := sound.closing_of_busy (by simp [started])
  rw [CloseOperation.finish_of_started result started] at finished
  cases finished
  exact ⟨by simp [closing], by simp, by simp, fun _ => Or.inl rfl, fun _ => rfl⟩

theorem delete (working : entry.worker = some .delete) :
    EntrySound { entry with listed := false, worker := none } := by
  have finished := sound.finished_of_worker working
  refine ⟨sound.active, fun _ => rfl, ?_, fun _ => Or.inr ⟨rfl, rfl⟩, fun _ => finished⟩
  intro started
  cases started.symm.trans finished

theorem close (working : entry.worker = some pc)
    (move : CloseMove m op entry reply pc next watchers) :
    next.done = op.done ∧ ∃ moved, next.entry = some moved ∧ EntrySound moved := by
  cases move with
  | finish finished => exact ⟨rfl, _, rfl, sound.finish working finished⟩
  | delete => exact ⟨rfl, _, rfl, sound.delete working⟩
  | _ =>
    exact ⟨rfl, _, rfl, sound.goOn working (by simp) (by simp)⟩

end

end EntrySound

/-! ## Operations and their owners -/

/-- Whether the call owns the operation, as a weight. -/
def OpenCall.owns (id : Nat) (call : OpenCall) : Nat :=
  if call.pc.operation = some id then 1 else 0

/-- Whether the operation is under way, as a number of owners. -/
def pending (operations : List OpenOperation) (id : Nat) : Nat :=
  match operations[id]? with
  | some op => if op.done then 0 else 1
  | none => 0

structure ManagerSound (m : Manager) : Prop where
  owners : ∀ id, tally (OpenCall.owns id) m.calls = pending m.operations id
  entries :
    ∀ (id : Nat) (op : OpenOperation) (entry : Entry),
      m.operations[id]? = some op → op.entry = some entry →
        op.done = true ∧ EntrySound entry

theorem managerSound_new (hooks : Nat) : ManagerSound (.new hooks) := by
  constructor
  · intro id
    simp [Manager.new, pending]
  · intro id op entry present
    simp [Manager.new] at present

theorem OpenOperation.entry_of_registered {op : OpenOperation} {entry : Entry}
    (registered : op.registered = some entry) :
    op.entry = some entry ∧ entry.listed = true := by
  simpa [OpenOperation.registered, Option.filter_eq_some_iff] using registered

variable {operations : List OpenOperation} {found fresh : OpenOperation}

theorem pending_set {id : Nat} (present : operations[id]? = some found) (other : Nat) :
    pending (operations.set id next) other =
      if other = id then (if next.done then 0 else 1) else pending operations other := by
  have inside := (List.getElem?_eq_some_iff.mp present).1
  by_cases same : other = id
  · subst same
    simp [pending, getElem?_set_self inside]
  · have different : id ≠ other := fun equal => same equal.symm
    simp [pending, getElem?_set_ne different, same]

theorem pending_of_present {id : Nat} (present : operations[id]? = some found) :
    pending operations id = if found.done then 0 else 1 := by
  simp [pending, present]

theorem pending_concat (operations : List OpenOperation)
    (undone : fresh.done = false) (other : Nat) :
    pending (operations ++ [fresh]) other =
      if other = operations.length then 1 else pending operations other := by
  by_cases same : other = operations.length
  · subst same
    simp [pending, undone]
  rcases Nat.lt_or_gt_of_ne same with inside | outside
  · simp [pending, getElem?_append_left inside, same]
  have beyond : (operations ++ [fresh])[other]? = none := by
    rw [getElem?_eq_none_iff, length_append, length_singleton]
    omega
  have absent : operations[other]? = none := by
    rw [getElem?_eq_none_iff]
    omega
  simp [pending, beyond, absent, same]

namespace ManagerSound

variable {moved : Entry} {m next : Manager}

variable {id index : Nat} {call : OpenCall} {op after : OpenOperation}

theorem undone (sound : ManagerSound m) (caller : m.calls[index]? = some call)
    (owns : call.pc.operation = some id) (present : m.operations[id]? = some op) :
    op.done = false ∧ op.entry = none := by
  have owned := sound.owners id
  have weight := weight_le_tally (OpenCall.owns id) (mem_of_getElem? caller)
  rw [pending_of_present present] at owned
  have undone : op.done = false := by
    cases done : op.done with
    | false => rfl
    | true =>
      simp [OpenCall.owns, owns, done] at weight owned
      omega
  refine ⟨undone, ?_⟩
  cases published : op.entry with
  | none => rfl
  | some entry =>
    have done := (sound.entries id op entry present published).1
    rw [undone] at done
    cases done

variable {pc' : OpenPC}

section

variable (sound : ManagerSound m) (caller : m.calls[index]? = some call)
include sound caller

theorem goOn (owns : pc'.operation = call.pc.operation)
    (operations : next.operations = m.operations)
    (calls : next.calls = m.calls.set index { call with pc := pc' }) :
    ManagerSound next := by
  constructor
  · intro id
    have moved := tally_set (OpenCall.owns id) caller { call with pc := pc' }
    have same : OpenCall.owns id { call with pc := pc' } = OpenCall.owns id call := by
      simp [OpenCall.owns, owns]
    rw [calls, operations, ← sound.owners id]
    omega
  · rw [operations]
    exact sound.entries

theorem register (free : call.pc.operation = none) (owns : pc'.operation = some m.operations.length)
    (undone : fresh.done = false) (unpublished : fresh.entry = none)
    (operations : next.operations = m.operations ++ [fresh])
    (calls : next.calls = m.calls.set index { call with pc := pc' }) :
    ManagerSound next := by
  constructor
  · intro id
    have moved := tally_set (OpenCall.owns id) caller { call with pc := pc' }
    have owned := sound.owners id
    have before : OpenCall.owns id call = 0 := by simp [OpenCall.owns, free]
    rw [calls, operations, pending_concat _ undone]
    split
    next same =>
      subst same
      have none : pending m.operations m.operations.length = 0 := by
        simp [pending]
      have after : OpenCall.owns m.operations.length { call with pc := pc' } = 1 := by
        simp [OpenCall.owns, owns]
      omega
    next different =>
      have after : OpenCall.owns id { call with pc := pc' } = 0 := by
        simp only [OpenCall.owns, owns, Option.some.injEq, ite_eq_right_iff]
        exact fun equal => absurd equal.symm different
      omega
  · intro id op entry present published
    rw [operations] at present
    rcases getElem?_concat_cases present with ⟨_, rfl⟩ | before
    · rw [unpublished] at published
      cases published
    · exact sound.entries id op entry before published

theorem owned (owns : call.pc.operation = some id) (present : m.operations[id]? = some found)
    (keeps : pc'.operation = if after.done then none else some id)
    (entries : ∀ entry, after.entry = some entry → after.done = true ∧ EntrySound entry)
    (operations : next.operations = m.operations.set id after)
    (calls : next.calls = m.calls.set index { call with pc := pc' }) :
    ManagerSound next := by
  obtain ⟨undone, _⟩ := sound.undone caller owns present
  constructor
  · intro other
    have moved := tally_set (OpenCall.owns other) caller { call with pc := pc' }
    have owned := sound.owners other
    rw [calls, operations, pending_set present]
    by_cases same : other = id
    · subst same
      rw [pending_of_present present] at owned
      cases done : after.done <;>
        simp [OpenCall.owns, owns, keeps, done, undone] at moved owned ⊢ <;> omega
    have different : ¬id = other := fun equal => same equal.symm
    cases done : after.done <;>
      simp [OpenCall.owns, owns, keeps, done, same, different] at moved owned ⊢ <;>
        omega
  · intro other op entry located published
    rw [operations] at located
    rcases getElem?_set_cases located with ⟨_, rfl⟩ | ⟨_, before⟩
    · exact entries entry published
    · exact sound.entries other op entry before published

end

theorem setOperation (sound : ManagerSound m) (present : m.operations[id]? = some op)
    (operations : next.operations = m.operations.set id after)
    (calls : next.calls = m.calls) (done : after.done = op.done)
    (published : op.entry ≠ none) (entry : after.entry = some moved)
    (entrySound : EntrySound moved) : ManagerSound next := by
  obtain ⟨before, known⟩ := Option.ne_none_iff_exists'.mp published
  have isDone := (sound.entries id op before present known).1
  constructor
  · intro other
    rw [calls, operations, pending_set present, sound.owners other]
    split
    next same =>
      subst same
      rw [pending_of_present present, done]
    · rfl
  · intro other found current located isEntry
    rw [operations] at located
    rcases getElem?_set_cases located with ⟨rfl, rfl⟩ | ⟨_, old⟩
    · rw [entry] at isEntry
      cases isEntry
      exact ⟨done.trans isDone, entrySound⟩
    · exact sound.entries other found current old isEntry

theorem clearOne_spec (op : OpenOperation) :
    (Manager.clearOne op).done = op.done ∧
      ((Manager.clearOne op).entry = op.entry ∨
        ∃ entry, op.entry = some entry ∧ entry.state = .active ∧
          (Manager.clearOne op).entry = some { entry with
            state := .closing
            close := entry.close.begin.2
            worker := some .stopWatcher }) := by
  unfold Manager.clearOne
  split
  · exact ⟨rfl, Or.inl rfl⟩
  rename_i entry registered
  split
  · exact ⟨rfl, Or.inl rfl⟩
  rename_i open_
  have known := (OpenOperation.entry_of_registered registered).1
  refine ⟨rfl, Or.inr ⟨entry, known, ?_, rfl⟩⟩
  cases state : entry.state with
  | active => rfl
  | closing => exact absurd state open_

theorem clear (sound : ManagerSound m)
    (operations : next.operations = m.operations.map Manager.clearOne)
    (calls : next.calls = m.calls) : ManagerSound next := by
  constructor
  · intro id
    rw [calls, operations, sound.owners id]
    unfold pending
    rw [getElem?_map]
    cases present : m.operations[id]? with
    | none => rfl
    | some op => simp [(clearOne_spec op).1]
  · intro id cleared entry located published
    rw [operations, getElem?_map] at located
    obtain ⟨op, present, rfl⟩ := Option.map_eq_some_iff.mp located
    obtain ⟨done, moved⟩ := clearOne_spec op
    rw [done]
    rcases moved with same | ⟨before, known, active, taken⟩
    · rw [same] at published
      exact sound.entries id op entry present published
    rw [taken] at published
    cases published
    obtain ⟨isDone, entrySound⟩ := sound.entries id op before present known
    exact ⟨isDone, entrySound.takeOver active⟩

theorem step {action : Action} (sound : ManagerSound m)
    (taken : m.step action = some next) : ManagerSound next := by
  cases ManagerEffect.of_step taken with
  | keep | watcherExits => exact ⟨sound.owners, sound.entries⟩
  | openRoot =>
    refine ⟨fun id => ?_, sound.entries⟩
    simpa [OpenCall.owns, OpenPC.operation] using sound.owners id
  | goOn caller owns => exact sound.goOn caller owns rfl rfl
  | watch caller at_ | closeWatcher caller at_ =>
    exact sound.goOn caller (by rw [at_]; rfl) rfl rfl
  | register caller at_ =>
    exact sound.register caller (by rw [at_]; rfl) rfl rfl rfl rfl rfl
  | @publish _ call id _ _ _ _ caller at_ present =>
    have owns : call.pc.operation = some id := by rw [at_]; rfl
    refine sound.owned caller owns present rfl ?_ rfl rfl
    intro entry published
    cases published
    exact ⟨rfl, EntrySound.new⟩
  | @setFailed _ call id _ _ _ caller at_ present =>
    have owns : call.pc.operation = some id := by rw [at_]; rfl
    obtain ⟨undone, unpublished⟩ := sound.undone caller owns present
    refine sound.owned caller owns present ?_ ?_ rfl rfl
    · simp [undone, OpenPC.operation]
    · intro entry published
      simp [unpublished] at published
  | @finishOpen _ call id _ _ _ caller at_ present =>
    have owns : call.pc.operation = some id := by rw [at_]; rfl
    obtain ⟨_, unpublished⟩ := sound.undone caller owns present
    refine sound.owned caller owns present rfl ?_ rfl rfl
    intro entry published
    simp [unpublished] at published
  | @beginClose op entry id present registered active =>
    have known := (OpenOperation.entry_of_registered registered).1
    have entrySound := (sound.entries id op entry present known).2
    exact sound.setOperation present rfl rfl rfl (by simp [known]) rfl
      (entrySound.takeOver active)
  | clear => exact sound.clear rfl rfl
  | @worker op entry _ _ _ _ id present published working move =>
    have entrySound := (sound.entries id op entry present published).2
    obtain ⟨done, moved, isMoved, movedSound⟩ := entrySound.close working move
    exact sound.setOperation present rfl rfl done (by simp [published]) isMoved movedSound

end ManagerSound

end Ferretd.Workspaces

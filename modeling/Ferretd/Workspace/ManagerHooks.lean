import Ferretd.Workspace.ManagerInvariant

/-!
# Entries and their close hooks

What one step of the workspace manager does to one entry: a published entry stays,
its close operation only moves forward, and the only way past a close hook is to call
it and to get its answer.
-/

namespace Ferretd.Workspaces

open Library List

def ClosePC.called : ClosePC → Bool
  | .stopWatcher | .joinWatcher _ _ => false
  | .hooks remaining _ => decide (remaining = 0)
  | _ => true

def ClosePC.answered : ClosePC → Bool
  | .hooks remaining _ => decide (remaining = 0)
  | .close _ | .finish _ | .delete => true
  | _ => false

/-- The goroutine of the entry has passed a test, or has ended. -/
def Entry.passed (test : ClosePC → Bool) (entry : Entry) : Bool :=
  match entry.worker with
  | some pc => test pc
  | none => decide (entry.state = .closing)

structure EntryMoves (action : Action) (id : Nat) (before after : Entry) : Prop where
  close : before.close.Evolves after.close
  closing : before.state = .closing → after.state = .closing
  called :
    after.passed ClosePC.called = true → before.passed ClosePC.called = true ∨
      ∃ reply remaining result, action = .worker id reply ∧
        before.worker = some (.hooks (remaining + 1) result)
  answered :
    after.passed ClosePC.answered = true → before.passed ClosePC.answered = true ∨
      ∃ reply remaining result, action = .worker id reply ∧
        before.worker = some (.awaitHook remaining result)

theorem EntryMoves.refl (action : Action) (id : Nat) (entry : Entry) :
    EntryMoves action id entry entry :=
  ⟨.refl _, fun closing => closing, .inl, .inl⟩

theorem EntryMoves.takeOver (action : Action) (id : Nat) (entry : Entry) :
    EntryMoves action id entry { entry with
      state := .closing
      close := entry.close.begin.2
      worker := some .stopWatcher } := by
  refine ⟨CloseOperation.evolves_begin _, fun _ => rfl, ?_, ?_⟩
  · nofun
  · nofun

variable {entry : Entry} {action : Action} {pc pc' : ClosePC} {op : OpenOperation}
  {m next : Manager} {reply : Reply} {watchers : List Watcher} {id : Nat}

theorem EntryMoves.goOn
    (working : entry.worker = some pc) (called : pc'.called = true → pc.called = true)
    (answered : pc'.answered = true → pc.answered = true) :
    EntryMoves action id entry { entry with worker := some pc' } := by
  refine ⟨.refl _, fun closing => closing, ?_, ?_⟩
  · intro passed
    left
    simp only [Entry.passed, working]
    exact called passed
  intro passed
  left
  simp only [Entry.passed, working]
  exact answered passed

theorem EntryMoves.worker {next : OpenOperation} (hooks : m.hooks ≠ 0)
    (working : entry.worker = some pc) (move : CloseMove m op entry reply pc next watchers) :
    ∃ after, next.entry = some after ∧ EntryMoves (.worker id reply) id entry after := by
  cases move with
  | unwatched | join =>
    refine ⟨_, rfl, EntryMoves.goOn working ?_ ?_⟩ <;>
      simp [ClosePC.called, ClosePC.answered, hooks]
  | @call remaining result =>
    refine ⟨_, rfl, .refl _, fun closing => closing, ?_, ?_⟩
    · intro _
      exact .inr ⟨reply, remaining, result, rfl, working⟩
    · nofun
  | @answer remaining result =>
    refine ⟨_, rfl, .refl _, fun closing => closing, ?_, ?_⟩
    · intro _
      left
      simp [Entry.passed, working, ClosePC.called]
    · intro _
      exact .inr ⟨reply, remaining, result, rfl, working⟩
  | @finish result _ finished =>
    have passed : ∀ {test : ClosePC → Bool}, test (.finish result) = true →
        entry.passed test = true := by
      intro test holds
      simp only [Entry.passed, working]
      exact holds
    exact ⟨_, rfl, CloseOperation.evolves_finish finished, fun closing => closing,
      fun _ => .inl (passed rfl), fun _ => .inl (passed rfl)⟩
  | delete =>
    have passed : ∀ {test : ClosePC → Bool}, test .delete = true → entry.passed test = true := by
      intro test holds
      simp only [Entry.passed, working]
      exact holds
    exact ⟨_, rfl, .refl _, fun closing => closing,
      fun _ => .inl (passed rfl), fun _ => .inl (passed rfl)⟩
  | _ =>
    refine ⟨_, rfl, EntryMoves.goOn working ?_ ?_⟩ <;>
      simp [ClosePC.called, ClosePC.answered]

/-- Every entry is kept, and an entry that is published is new. -/
structure EntriesMove (m : Manager) (action : Action)
    (after : List OpenOperation) : Prop where
  kept :
    ∀ (id : Nat) (op : OpenOperation) (entry : Entry),
      m.operations[id]? = some op → op.entry = some entry →
        ∃ later moved, after[id]? = some later ∧ later.entry = some moved ∧
          EntryMoves action id entry moved
  fresh :
    ∀ (id : Nat) (later : OpenOperation) (moved : Entry),
      after[id]? = some later → later.entry = some moved → moved = .new ∨
        ∃ op entry, m.operations[id]? = some op ∧ op.entry = some entry

namespace EntriesMove

theorem refl (m : Manager) (action : Action) :
    EntriesMove m action m.operations := by
  constructor
  · intro id op entry present published
    exact ⟨op, entry, present, published, EntryMoves.refl action id entry⟩
  · intro id later moved present published
    exact .inr ⟨later, moved, present, published⟩

variable {after : OpenOperation} {moved : Entry}

theorem setUnpublished (present : m.operations[id]? = some op) (unpublished : op.entry = none)
    (fresh : ∀ entry, after.entry = some entry → entry = .new) :
    EntriesMove m action (m.operations.set id after) := by
  constructor
  · intro other found entry located published
    have different : id ≠ other := by
      intro same
      subst same
      rw [present] at located
      cases located
      rw [unpublished] at published
      cases published
    refine ⟨found, entry, ?_, published, EntryMoves.refl action other entry⟩
    rw [getElem?_set_ne different]
    exact located
  · intro other later moved located published
    rcases getElem?_set_cases located with ⟨_, rfl⟩ | ⟨_, before⟩
    · exact .inl (fresh moved published)
    · exact .inr ⟨later, moved, before, published⟩

theorem setEntry (present : m.operations[id]? = some op)
    (published : op.entry = some entry) (isMoved : after.entry = some moved)
    (moves : EntryMoves action id entry moved) :
    EntriesMove m action (m.operations.set id after) := by
  constructor
  · intro other found known located isKnown
    by_cases same : id = other
    · subst same
      rw [present] at located
      cases located
      rw [published] at isKnown
      cases isKnown
      exact ⟨after, moved, getElem?_set_self (List.getElem?_eq_some_iff.mp present).1,
        isMoved, moves⟩
    · refine ⟨found, known, ?_, isKnown, EntryMoves.refl action other known⟩
      rw [getElem?_set_ne same]
      exact located
  · intro other later known located isKnown
    rcases getElem?_set_cases located with ⟨rfl, rfl⟩ | ⟨_, before⟩
    · exact .inr ⟨op, entry, present, published⟩
    · exact .inr ⟨later, known, before, isKnown⟩

end EntriesMove

theorem ManagerEffect.entries_move (sound : ManagerSound m)
    (hooks : m.hooks ≠ 0) (effect : ManagerEffect m action next) :
    EntriesMove m action next.operations := by
  cases effect with
  | register =>
    constructor
    · intro id op entry present published
      refine ⟨op, entry, ?_, published, EntryMoves.refl _ id entry⟩
      show (m.operations ++ _)[id]? = some op
      rw [getElem?_append_left (List.getElem?_eq_some_iff.mp present).1]
      exact present
    · intro id later moved present published
      rcases getElem?_concat_cases present with ⟨_, rfl⟩ | before
      · cases published
      · exact .inr ⟨later, moved, before, published⟩
  | @publish _ call id _ _ _ _ caller at_ present =>
    have owns : call.pc.operation = some id := by rw [at_]; rfl
    refine .setUnpublished present (sound.undone caller owns present).2 ?_
    intro entry published
    cases published
    rfl
  | @setFailed _ call id _ _ _ caller at_ present
  | @finishOpen _ call id _ _ _ caller at_ present =>
    have owns : call.pc.operation = some id := by rw [at_]; rfl
    have unpublished := (sound.undone caller owns present).2
    refine .setUnpublished present unpublished ?_
    intro entry published
    simp [unpublished] at published
  | @beginClose _ entry id present registered =>
    have known := (OpenOperation.entry_of_registered registered).1
    exact .setEntry present known rfl (EntryMoves.takeOver _ id entry)
  | clear =>
    constructor
    · intro id op entry present published
      refine ⟨Manager.clearOne op, ?_⟩
      simp only [getElem?_map, present, Option.map_some, true_and]
      rcases (ManagerSound.clearOne_spec op).2 with same | ⟨old, known, _, taken⟩
      · exact ⟨entry, same.trans published, EntryMoves.refl _ id entry⟩
      · rw [published] at known
        cases known
        exact ⟨_, taken, EntryMoves.takeOver _ id entry⟩
    · intro id later moved present published
      rw [getElem?_map] at present
      obtain ⟨op, before, rfl⟩ := Option.map_eq_some_iff.mp present
      rcases (ManagerSound.clearOne_spec op).2 with same | ⟨old, known, _, _⟩
      · exact .inr ⟨op, moved, before, same.symm.trans published⟩
      · exact .inr ⟨op, old, before, known⟩
  | worker present published working move =>
    obtain ⟨moved, isMoved, moves⟩ := EntryMoves.worker hooks working move
    exact .setEntry present published isMoved moves
  | _ =>
    exact .refl m _

theorem Manager.hooks_step (effect : ManagerEffect m action next) :
    next.hooks = m.hooks := by
  cases effect <;> rfl

end Ferretd.Workspaces

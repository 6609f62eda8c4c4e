import Ferretd.Workspace.ManagerIdentity

/-!
# Who owns a filesystem watcher

A watcher belongs to the call of `Open` that made it until that call publishes it with
its entry or has closed it.  From then on the entry owns it until its close has stopped
it, before the hooks, and has released the workspace.
-/

namespace Ferretd.Workspaces

open Library List

/-! ## One owner -/

/-- The watcher that a call of `Open` has made and not yet handed on or stopped. -/
def OpenPC.watcher : OpenPC → Option Nat
  | .addDirectory _ watcher | .load _ watcher | .checkContext _ watcher
  | .commit _ watcher | .closeWatcher _ watcher _ | .joinWatcher _ watcher _ => some watcher
  | _ => none

variable {reply : Reply} {pc' : OpenPC} {pc : ClosePC} {entry : Entry} {watchers : List Watcher}
  {op : OpenOperation} {call left right : OpenCall} {held : Watcher} {m next later : Manager}
  {watcher id index root : Nat}

theorem OpenMove.watcher_kept {pc : OpenPC}
    (move : OpenMove m root reply pc pc') (holds : pc'.watcher = some watcher) :
    pc.watcher = some watcher := by
  cases move <;> first | exact holds | cases holds

theorem CloseMove.watcher_kept {next : OpenOperation}
    (move : CloseMove m op entry reply pc next watchers)
    (watches : next.workspace.watcher = some watcher) :
    op.workspace.watcher = some watcher := by
  cases move with
  | release =>
    by_cases closed : op.workspace.state = .closed
    · simpa [Workspace.close, closed] using watches
    · simp [Workspace.close, closed] at watches
  | _ => exact watches

theorem Manager.clearOne_watcher (op : OpenOperation) :
    (Manager.clearOne op).workspace.watcher = op.workspace.watcher := by
  unfold Manager.clearOne
  split
  · rfl
  · split <;> rfl

namespace ManagerEffect

variable {m next : Manager} {action : Action} {watcher : Nat}

section

variable (effect : ManagerEffect m action next)
include effect

theorem holder (located : next.calls[index]? = some call) (holds : call.pc.watcher = some watcher) :
    (∃ before, m.calls[index]? = some before ∧ before.pc.watcher = some watcher ∧
        before.pc.operation = call.pc.operation) ∨
      watcher = m.watchers.length ∧ watcher < next.watchers.length := by
  have same : m.calls[index]? = some call →
      ∃ before, m.calls[index]? = some before ∧ before.pc.watcher = some watcher ∧
        before.pc.operation = call.pc.operation :=
    fun caller => ⟨call, caller, holds, rfl⟩
  cases effect with
  | openRoot =>
    rcases getElem?_concat_cases located with ⟨_, rfl⟩ | before
    · cases holds
    · exact .inl (same before)
  | @goOn _ moving _ _ caller owns move =>
    rcases getElem?_set_cases located with ⟨rfl, rfl⟩ | ⟨_, before⟩
    · exact .inl ⟨moving, caller, move.watcher_kept holds, owns.symm⟩
    · exact .inl (same before)
  | watch =>
    rcases getElem?_set_cases located with ⟨rfl, rfl⟩ | ⟨_, before⟩
    · cases holds
      exact .inr ⟨rfl, by simp [Manager.goOn]⟩
    · exact .inl (same before)
  | @closeWatcher _ moving _ _ _ _ _ caller at_ =>
    rcases getElem?_set_cases located with ⟨rfl, rfl⟩ | ⟨_, before⟩
    · refine .inl ⟨moving, caller, ?_⟩
      rw [at_]
      exact ⟨holds, rfl⟩
    · exact .inl (same before)
  | register | publish | setFailed | finishOpen =>
    rcases getElem?_set_cases located with ⟨_, rfl⟩ | ⟨_, before⟩
    · cases holds
    · exact .inl (same before)
  | _ => exact .inl (same located)

/-- A workspace that has a watcher had it before or was given it by the call that
publishes it. -/
theorem keeper (located : next.operations[id]? = some op)
    (watches : op.workspace.watcher = some watcher) :
    (∃ before, m.operations[id]? = some before ∧
        before.workspace.watcher = some watcher) ∨
      ∃ (index : Nat) (call : OpenCall), m.calls[index]? = some call ∧
        call.pc.watcher = some watcher ∧ call.pc.operation = some id := by
  cases effect with
  | register =>
    rcases getElem?_concat_cases located with ⟨_, rfl⟩ | before
    · cases watches
    · exact .inl ⟨op, before, watches⟩
  | @publish index call _ _ _ _ _ caller at_ =>
    rcases getElem?_set_cases located with ⟨rfl, rfl⟩ | ⟨_, before⟩
    · refine .inr ⟨index, call, caller, ?_⟩
      rw [at_]
      exact ⟨watches, rfl⟩
    · exact .inl ⟨op, before, watches⟩
  | setFailed =>
    rcases getElem?_set_cases located with ⟨_, rfl⟩ | ⟨_, before⟩
    · cases watches
    · exact .inl ⟨op, before, watches⟩
  | @finishOpen _ _ _ found _ _ _ _ present | @beginClose found _ _ present =>
    rcases getElem?_set_cases located with ⟨rfl, rfl⟩ | ⟨_, before⟩
    · exact .inl ⟨found, present, watches⟩
    · exact .inl ⟨op, before, watches⟩
  | clear =>
    dsimp only at located
    rw [getElem?_map] at located
    obtain ⟨before, present, rfl⟩ := Option.map_eq_some_iff.mp located
    rw [Manager.clearOne_watcher] at watches
    exact .inl ⟨before, present, watches⟩
  | @worker found _ _ _ _ _ _ present _ _ move =>
    rcases getElem?_set_cases located with ⟨rfl, rfl⟩ | ⟨_, before⟩
    · exact .inl ⟨found, present, move.watcher_kept watches⟩
    · exact .inl ⟨op, before, watches⟩
  | _ =>
    exact .inl ⟨op, located, watches⟩

theorem watchers_length : m.watchers.length ≤ next.watchers.length := by
  cases effect with
  | watch => simp [Manager.goOn]
  | publish | closeWatcher | watcherExits =>
    simp [Manager.goOn, Manager.publish, Manager.setWatcher]
  | worker _ _ _ move =>
    cases move <;> simp
  | _ =>
    exact Nat.le_refl _

end

end ManagerEffect

structure WatchersMade (m : Manager) : Prop where
  calls :
    ∀ (index : Nat) (call : OpenCall) (watcher : Nat), m.calls[index]? = some call →
      call.pc.watcher = some watcher → watcher < m.watchers.length
  operations :
    ∀ (id : Nat) (op : OpenOperation) (watcher : Nat),
      m.operations[id]? = some op →
        op.workspace.watcher = some watcher → watcher < m.watchers.length

theorem watchersMade_new (hooks : Nat) : WatchersMade (.new hooks) := by
  constructor <;> simp [Manager.new]

variable {action : Action}

theorem WatchersMade.step (sound : WatchersMade m)
    (taken : m.step action = some next) : WatchersMade next := by
  have effect := ManagerEffect.of_step taken
  have longer := effect.watchers_length
  constructor
  · intro index call watcher located holds
    rcases effect.holder located holds with ⟨before, caller, held, _⟩ | ⟨_, made⟩
    · exact Nat.lt_of_lt_of_le (sound.calls index before watcher caller held) longer
    · exact made
  intro id op watcher located watches
  rcases effect.keeper located watches with
    ⟨before, present, watched⟩ | ⟨index, call, caller, held, _⟩
  · exact Nat.lt_of_lt_of_le (sound.operations id before watcher present watched) longer
  · exact Nat.lt_of_lt_of_le (sound.calls index call watcher caller held) longer

/-- The watcher is held by the call at `index` for the operation `id`, or by the
workspace of that operation, and by nothing else. -/
structure SoleOwner (m : Manager) (index id watcher : Nat) : Prop where
  made : watcher < m.watchers.length
  calls :
    ∀ (other : Nat) (call : OpenCall), m.calls[other]? = some call →
      call.pc.watcher = some watcher → other = index ∧ call.pc.operation = some id
  operations :
    ∀ (other : Nat) (op : OpenOperation), m.operations[other]? = some op →
      op.workspace.watcher = some watcher → other = id

theorem SoleOwner.step (sole : SoleOwner m index id watcher)
    (taken : m.step action = some next) : SoleOwner next index id watcher := by
  have effect := ManagerEffect.of_step taken
  refine ⟨Nat.lt_of_lt_of_le sole.made effect.watchers_length, ?_, ?_⟩
  · intro other call located holds
    rcases effect.holder located holds with ⟨before, caller, held, owns⟩ | ⟨fresh, _⟩
    · rw [← owns]
      exact sole.calls other before caller held
    · have old := sole.made
      omega
  · intro other op located watches
    rcases effect.keeper located watches with
      ⟨before, present, watched⟩ | ⟨holder, call, caller, held, owns⟩
    · exact sole.operations other before present watched
    have owned := (sole.calls holder call caller held).2
    rw [owns] at owned
    cases owned
    rfl

/-! ## The fate of one watcher -/

namespace Manager

/-- `Close` has been called on the watcher. -/
def stopped (m : Manager) (watcher : Nat) : Prop :=
  ∃ held, m.watchers[watcher]? = some held ∧ held.closed = true

/-- The watcher is closed and its event loop has ended. -/
def retired (m : Manager) (watcher : Nat) : Prop :=
  ∃ held, m.watchers[watcher]? = some held ∧ held.closed = true ∧ held.looping = false

end Manager

theorem ManagerEffect.watcher_kept (effect : ManagerEffect m action next)
    (present : m.watchers[watcher]? = some held) :
    ∃ after, next.watchers[watcher]? = some after ∧
      (held.closed = true → after.closed = true ∧
        (held.looping = false → after.looping = false)) := by
  have set : ∀ {changed : Nat} {before moved : Watcher},
      m.watchers[changed]? = some before →
        (before.closed = true →
          moved.closed = true ∧ (before.looping = false → moved.looping = false)) →
        ∃ after, (m.watchers.set changed moved)[watcher]? = some after ∧
          (held.closed = true →
            after.closed = true ∧ (held.looping = false → after.looping = false)) := by
    intro changed before moved isBefore kept
    by_cases same : changed = watcher
    · subst same
      rw [present] at isBefore
      cases isBefore
      exact ⟨moved, getElem?_set_self (List.getElem?_eq_some_iff.mp present).1, kept⟩
    · exact ⟨held, by rw [getElem?_set_ne same]; exact present, fun closed => ⟨closed, id⟩⟩
  have same : ∃ after, m.watchers[watcher]? = some after ∧
      (held.closed = true →
        after.closed = true ∧ (held.looping = false → after.looping = false)) :=
    ⟨held, present, fun closed => ⟨closed, id⟩⟩
  cases effect with
  | watch =>
    refine ⟨held, ?_, fun closed => ⟨closed, id⟩⟩
    exact getElem?_append_left (List.getElem?_eq_some_iff.mp present).1 ▸ present
  | publish _ _ _ watched =>
    refine set watched ?_
    intro closed
    simp [Watcher.start, closed]
  | closeWatcher _ _ watched =>
    exact set watched fun _ => ⟨rfl, id⟩
  | watcherExits watched =>
    exact set watched fun isClosed => ⟨isClosed, fun _ => rfl⟩
  | worker _ _ _ move =>
    cases move with
    | stop _ watched =>
      exact set watched fun _ => ⟨rfl, fun ended => ended⟩
    | _ => exact same
  | _ =>
    exact same

namespace ManagerEffect

variable {m next : Manager} {action : Action} {watcher : Nat}

theorem stopped_kept (effect : ManagerEffect m action next)
    (stopped : m.stopped watcher) : next.stopped watcher := by
  obtain ⟨held, present, closed⟩ := stopped
  obtain ⟨after, located, kept⟩ := effect.watcher_kept present
  exact ⟨after, located, (kept closed).1⟩

theorem retired_kept (effect : ManagerEffect m action next)
    (retired : m.retired watcher) : next.retired watcher := by
  obtain ⟨held, present, closed, ended⟩ := retired
  obtain ⟨after, located, kept⟩ := effect.watcher_kept present
  exact ⟨after, located, (kept closed).1, (kept closed).2 ended⟩

end ManagerEffect

theorem Manager.retired_of_joined (stopped : m.stopped watcher)
    (ended : m.joined watcher = true) : m.retired watcher := by
  obtain ⟨held, present, closed⟩ := stopped
  refine ⟨held, present, closed, ?_⟩
  simpa [Manager.joined, present] using ended

/-- The close of the entry has stopped the watcher. -/
def ClosePC.stopped : ClosePC → Bool
  | .stopWatcher | .joinWatcher _ _ => false
  | _ => true

/-- The close of the entry has released the workspace. -/
def ClosePC.released : ClosePC → Bool
  | .finish _ | .delete => true
  | _ => false

namespace Entry

/-- The close hooks of the entry are being called, or have been. -/
def stopped (entry : Entry) : Bool :=
  match entry.worker with
  | some pc => pc.stopped
  | none => !entry.listed

def released (entry : Entry) : Bool :=
  match entry.worker with
  | some pc => pc.released
  | none => !entry.listed

end Entry

/-- The workspace of the operation owns the watcher, as far as the close of its entry
has come. -/
structure EntryOwns (m : Manager) (op : OpenOperation) (entry : Entry)
    (watcher : Nat) : Prop where
  owned : entry.released = false → op.workspace.watcher = some watcher
  joining :
    ∀ other result, entry.worker = some (.joinWatcher other result) →
      other = watcher ∧ m.stopped watcher
  stopped : entry.stopped = true → m.retired watcher

/-- The points at which a call of `Open` has stopped its watcher and fails. -/
def OpenPC.givesUp (id : Nat) : OpenPC → Bool
  | .setFailed op _ | .finishOpen op _ => op == id
  | .returned none err => !err.isEmpty
  | _ => false

/-- What becomes of the watcher that a call has made for an operation. -/
inductive WatcherFate (m : Manager) (call : OpenCall) (id watcher : Nat) : Prop
  | held (owns : call.pc.operation = some id) (holds : call.pc.watcher = some watcher)
      (stopping : ∀ err, call.pc = .joinWatcher id watcher err → m.stopped watcher)
  | discarded {op : OpenOperation}
      (fails : call.pc.givesUp id = true) (retired : m.retired watcher)
      (present : m.operations[id]? = some op)
      (unpublished : op.entry = none)
      (ceased : call.pc.operation = none → op.done = true)
  | published {op : OpenOperation} {entry : Entry} (returned : call.pc = .returned (some id) [])
      (present : m.operations[id]? = some op)
      (isEntry : op.entry = some entry)
      (owns : EntryOwns m op entry watcher)

namespace EntryOwns

variable {m next : Manager} {entry : Entry}

section

variable {after : OpenOperation} (owns : EntryOwns m op entry watcher)
include owns

theorem kept (effect : ManagerEffect m action next) :
    EntryOwns next op entry watcher := by
  refine ⟨owns.owned, ?_, fun stopped => effect.retired_kept (owns.stopped stopped)⟩
  intro other result joining
  obtain ⟨same, closed⟩ := owns.joining other result joining
  exact ⟨same, effect.stopped_kept closed⟩

theorem takeOver (sound : EntrySound entry)
    (active : entry.state = .active) (listed : entry.listed = true) :
    EntryOwns next (op.takeOver entry) { entry with
        state := .closing
        close := entry.close.begin.2
        worker := some .stopWatcher } watcher := by
  refine ⟨fun _ => ?_, nofun, nofun⟩
  have idle := sound.idle (sound.active.1 active)
  exact owns.owned (by simp [Entry.released, idle, listed])

theorem clear (effect : ManagerEffect m action next) (sound : EntrySound entry)
    (isEntry : op.entry = some entry) :
    ∃ current, (Manager.clearOne op).entry = some current ∧
      EntryOwns next (Manager.clearOne op) current watcher := by
  unfold Manager.clearOne
  split
  · exact ⟨entry, isEntry, owns.kept effect⟩
  rename_i current registered
  obtain ⟨known, listed⟩ := OpenOperation.entry_of_registered registered
  rw [isEntry] at known
  cases known
  split
  · exact ⟨entry, isEntry, owns.kept effect⟩
  rename_i open_
  have active : entry.state = .active := by
    cases state : entry.state with
    | active => rfl
    | closing => exact absurd state open_
  exact ⟨_, rfl, owns.takeOver sound active listed⟩

theorem close (effect : ManagerEffect m action next) (working : entry.worker = some pc)
    (move : CloseMove m op entry reply pc after watchers) (changed : next.watchers = watchers) :
    ∃ moved, after.entry = some moved ∧ EntryOwns next after moved watcher := by
  have stopped : pc.stopped = true → next.retired watcher := by
    intro isStopped
    exact effect.retired_kept (owns.stopped (by rw [Entry.stopped, working]; exact isStopped))
  have owned : pc.released = false → op.workspace.watcher = some watcher := by
    intro unreleased
    exact owns.owned (by rw [Entry.released, working]; exact unreleased)
  cases move with
  | unwatched none =>
    rw [owned rfl] at none
    cases none
  | @stop _ held watches present =>
    rw [owned rfl] at watches
    cases watches
    refine ⟨_, rfl, fun _ => owned rfl, ?_, nofun⟩
    intro joined result joining
    cases joining
    refine ⟨rfl, held.close, ?_, rfl⟩
    rw [changed]
    exact getElem?_set_self (List.getElem?_eq_some_iff.mp present).1
  | @join other result ended =>
    refine ⟨_, rfl, fun _ => owned rfl, nofun, fun _ => ?_⟩
    obtain ⟨same, closed⟩ := owns.joining other result working
    subst same
    exact effect.retired_kept (Manager.retired_of_joined closed ended)
  | release | finish | delete => exact ⟨_, rfl, nofun, nofun, fun _ => stopped rfl⟩
  | _ =>
    exact ⟨_, rfl, fun _ => owned rfl, nofun, fun _ => stopped rfl⟩

end

end EntryOwns

theorem ManagerEffect.caller_kept (effect : ManagerEffect m action next)
    (caller : m.calls[index]? = some call) :
    next.calls[index]? = some call ∨ ∃ reply, action = .call index reply := by
  cases effect.calls_move with
  | same calls =>
    rw [calls]
    exact .inl caller
  | openRoot calls =>
    rw [calls, getElem?_append_left (List.getElem?_eq_some_iff.mp caller).1]
    exact .inl caller
  | @call mover _ _ reply _ calls =>
    by_cases same : mover = index
    · exact .inr ⟨reply, by rw [same]⟩
    · rw [calls, getElem?_set_ne same]
      exact .inl caller

theorem ManagerSound.owner_unique (sound : ManagerSound m) {first second : Nat}
    (isLeft : m.calls[first]? = some left)
    (isRight : m.calls[second]? = some right)
    (leftOwns : left.pc.operation = some id) (rightOwns : right.pc.operation = some id) :
    second = first := by
  by_contra different
  have both := add_le_tally (OpenCall.owns id) isLeft isRight different
  have owned := sound.owners id
  have bound : pending m.operations id ≤ 1 := by
    unfold pending
    split
    · split <;> omega
    · omega
  simp only [OpenCall.owns, leftOwns, rightOwns, if_true] at both
  omega

theorem IdentitySound.owned (sound : IdentitySound m)
    (caller : m.calls[index]? = some call) (owns : call.pc.operation = some id) :
    ∃ op, m.operations[id]? = some op ∧ op.entry = none := by
  have refers : call.pc.refers = some id := by
    cases at_ : call.pc <;> rw [at_] at owns <;> first | exact owns | cases owns
  obtain ⟨found, located, _⟩ := (sound.calls index call caller).refers id refers
  obtain ⟨op, present, _⟩ := Option.map_eq_some_iff.mp located
  exact ⟨op, present, (sound.entries.undone caller owns present).2⟩

namespace WatcherFate

variable {m next : Manager} {index id watcher : Nat} {call : OpenCall}

theorem of_held (sound : IdentitySound m) (effect : ManagerEffect m (.call index reply) next)
    (caller : m.calls[index]? = some call)
    (owns : call.pc.operation = some id) (holds : call.pc.watcher = some watcher)
    (stopping : ∀ err, call.pc = .joinWatcher id watcher err → m.stopped watcher) :
    ∃ after, next.calls[index]? = some after ∧ WatcherFate next after id watcher := by
  have set : ∀ moved : OpenCall, (m.calls.set index moved)[index]? = some moved :=
    fun moved => getElem?_set_self (List.getElem?_eq_some_iff.mp caller).1
  obtain ⟨op, present, unpublished⟩ := sound.owned caller owns
  cases effect with
  | keep => exact ⟨call, caller, .held owns holds stopping⟩
  | goOn isSame _ move =>
    rw [caller] at isSame
    cases isSame
    refine ⟨_, set _, ?_⟩
    obtain ⟨root, pc⟩ := call
    cases move with
    | added | addFailed | loaded | loadFailed | live | cancelled | cleared =>
      exact .held owns holds nofun
    | @ended _ _ err joined =>
      cases owns
      cases holds
      refine .discarded ?_ ?_ present unpublished nofun
      · simp [OpenPC.givesUp]
      · exact Manager.retired_of_joined (stopping err rfl) joined
    | _ => cases holds
  | @closeWatcher _ _ _ before _ _ _ isSame at_ watched =>
    rw [caller] at isSame
    cases isSame
    rw [at_] at owns holds
    cases owns
    cases holds
    refine ⟨_, set _, .held rfl rfl ?_⟩
    intro _ _
    exact ⟨before.close, getElem?_set_self (List.getElem?_eq_some_iff.mp watched).1, rfl⟩
  | publish isSame at_ isFound =>
    rw [caller] at isSame
    cases isSame
    rw [at_] at owns holds
    cases owns
    cases holds
    exact ⟨_, set _, .published rfl
      (getElem?_set_self (List.getElem?_eq_some_iff.mp isFound).1) rfl ⟨fun _ => rfl, nofun, nofun⟩⟩
  | register isSame at_ | watch isSame at_
  | setFailed isSame at_ | finishOpen isSame at_ =>
    rw [caller] at isSame
    cases isSame
    rw [at_] at holds
    cases holds

variable {op : OpenOperation}

theorem of_discarded (sound : IdentitySound m) (effect : ManagerEffect m (.call index reply) next)
    (caller : m.calls[index]? = some call) (fails : call.pc.givesUp id = true)
    (retired : m.retired watcher) (present : m.operations[id]? = some op)
    (unpublished : op.entry = none) (ceased : call.pc.operation = none → op.done = true) :
    ∃ after, next.calls[index]? = some after ∧ WatcherFate next after id watcher := by
  have set : ∀ moved : OpenCall, (m.calls.set index moved)[index]? = some moved :=
    fun moved => getElem?_set_self (List.getElem?_eq_some_iff.mp caller).1
  have stillRetired := effect.retired_kept retired
  cases effect with
  | keep =>
    exact ⟨call, caller, .discarded fails retired present unpublished ceased⟩
  | goOn isSame _ move =>
    rw [caller] at isSame
    cases isSame
    obtain ⟨root, pc⟩ := call
    cases move <;> cases fails
  | @setFailed _ _ failed _ _ _ isSame at_ isFound =>
    rw [caller] at isSame
    cases isSame
    rw [at_] at fails
    have isFailed : failed = id := by simpa [OpenPC.givesUp] using fails
    subst isFailed
    rw [present] at isFound
    cases isFound
    refine ⟨_, set _, .discarded ?_ stillRetired
      (getElem?_set_self (List.getElem?_eq_some_iff.mp present).1) unpublished nofun⟩
    simp [OpenPC.givesUp]
  | @finishOpen _ _ failed _ _ err isSame at_ isFound =>
    rw [caller] at isSame
    cases isSame
    have failure := (sound.calls index call caller).failure err (by rw [at_]; rfl)
    rw [at_] at fails
    have isFailed : failed = id := by simpa [OpenPC.givesUp] using fails
    subst isFailed
    rw [present] at isFound
    cases isFound
    refine ⟨_, set _, .discarded ?_ stillRetired
      (getElem?_set_self (List.getElem?_eq_some_iff.mp present).1) unpublished fun _ => rfl⟩
    simpa [OpenPC.givesUp] using failure
  | register isSame at_ | watch isSame at_
  | publish isSame at_ | closeWatcher isSame at_ =>
    rw [caller] at isSame
    cases isSame
    rw [at_] at fails
    cases fails

variable {action : Action}

theorem discarded_kept (sound : IdentitySound m)
    (effect : ManagerEffect m action next) (caller : m.calls[index]? = some call)
    (fails : call.pc.givesUp id = true) (retired : m.retired watcher)
    (present : m.operations[id]? = some op) (unpublished : op.entry = none)
    (ceased : call.pc.operation = none → op.done = true) :
    WatcherFate next call id watcher := by
  obtain ⟨found, standing, _, _, done, _⟩ :=
    (effect.registry_move sound.entries).kept (Manager.standing_of_present present)
  obtain ⟨after, located, rfl⟩ := Option.map_eq_some_iff.mp standing
  refine .discarded fails (effect.retired_kept retired) located ?_ ?_
  · refine effect.unpublished present located unpublished ?_
    intro mover held reply moving _ isMover at_
    have moverOwns : moving.pc.operation = some id := by rw [at_]; rfl
    have undone := (sound.entries.undone isMover moverOwns present).1
    exfalso
    cases owns : call.pc.operation with
    | none =>
      rw [ceased owns] at undone
      cases undone
    | some owned =>
      have same : owned = id := by
        cases pc : call.pc <;> rw [pc] at fails owns <;> simp_all [OpenPC.givesUp, OpenPC.operation]
      subst same
      have equal := sound.entries.owner_unique isMover caller moverOwns owns
      subst equal
      rw [caller] at isMover
      cases isMover
      rw [at_] at fails
      cases fails
  · intro free
    exact (done (ceased free)).1

theorem published_kept (sound : ManagerSound m)
    (effect : ManagerEffect m action next) (returned : call.pc = .returned (some id) [])
    (present : m.operations[id]? = some op) (isEntry : op.entry = some entry)
    (owns : EntryOwns m op entry watcher) :
    WatcherFate next call id watcher := by
  have same : next.operations = m.operations → WatcherFate next call id watcher := by
    intro operations
    exact .published returned (by rw [operations]; exact present)
      isEntry (owns.kept effect)
  have other : ∀ {changed : Nat} {after : OpenOperation}, changed ≠ id →
      next.operations = m.operations.set changed after →
        WatcherFate next call id watcher := by
    intro changed after different operations
    refine .published returned ?_ isEntry (owns.kept effect)
    rw [operations, getElem?_set_ne different]
    exact present
  have moved : ∀ {after : OpenOperation} {current : Entry},
      next.operations = m.operations.set id after → after.entry = some current →
        EntryOwns next after current watcher → WatcherFate next call id watcher := by
    intro after current operations isCurrent currentOwns
    refine .published returned ?_ isCurrent currentOwns
    rw [operations]
    exact getElem?_set_self (List.getElem?_eq_some_iff.mp present).1
  -- the operation of a call that is still to complete it has no entry
  have unowned : ∀ {mover : Nat} {caller : OpenCall} {owned : Nat},
      m.calls[mover]? = some caller → caller.pc.operation = some owned → owned ≠ id := by
    intro mover caller owned isCaller callerOwns equal
    subst equal
    rw [(sound.undone isCaller callerOwns present).2] at isEntry
    cases isEntry
  have entrySound := (sound.entries id op entry present isEntry).2
  have stays := effect
  cases effect with
  | register =>
    refine .published returned ?_ isEntry (owns.kept stays)
    exact getElem?_append_left (List.getElem?_eq_some_iff.mp present).1 ▸ present
  | publish isCaller at_ | setFailed isCaller at_
  | finishOpen isCaller at_ =>
    exact other (unowned isCaller (by rw [at_]; rfl)) rfl
  | @beginClose _ _ closed isFound registered active =>
    by_cases equal : closed = id
    · subst equal
      rw [present] at isFound
      cases isFound
      obtain ⟨known, listed⟩ := OpenOperation.entry_of_registered registered
      rw [isEntry] at known
      cases known
      exact moved rfl rfl (owns.takeOver entrySound active listed)
    · exact other equal rfl
  | clear =>
    obtain ⟨current, isCurrent, currentOwns⟩ := owns.clear stays entrySound isEntry
    exact .published returned (by simp [present]) isCurrent currentOwns
  | @worker _ _ _ _ _ _ closed isFound published working move =>
    by_cases equal : closed = id
    · subst equal
      rw [present] at isFound
      cases isFound
      rw [isEntry] at published
      cases published
      obtain ⟨moving, isMoving, movingOwns⟩ := owns.close stays working move rfl
      exact moved rfl isMoving movingOwns
    · exact other equal rfl
  | _ => exact same rfl

theorem step (sound : IdentitySound m) (taken : m.step action = some next)
    (caller : m.calls[index]? = some call) (fate : WatcherFate m call id watcher) :
    ∃ after, next.calls[index]? = some after ∧ WatcherFate next after id watcher := by
  have effect := ManagerEffect.of_step taken
  cases fate with
  | held owns holds stopping =>
    rcases effect.caller_kept caller with kept | ⟨reply, rfl⟩
    · exact ⟨call, kept, .held owns holds fun err at_ =>
        effect.stopped_kept (stopping err at_)⟩
    · exact of_held sound effect caller owns holds stopping
  | discarded fails retired present unpublished ceased =>
    rcases effect.caller_kept caller with kept | ⟨reply, rfl⟩
    · exact ⟨call, kept,
        discarded_kept sound effect caller fails retired present unpublished ceased⟩
    · exact of_discarded sound effect caller fails retired present unpublished ceased
  | published returned present isEntry owns =>
    have kept : next.calls[index]? = some call := by
      rcases effect.caller_kept caller with kept | ⟨reply, rfl⟩
      · exact kept
      · obtain ⟨root, pc⟩ := call
        subst returned
        simp [Manager.step, caller, Manager.openStep] at taken
    exact ⟨call, kept, published_kept sound.entries effect returned present isEntry owns⟩

end WatcherFate

/-- The step in which the call at `index` makes `watcher` for the operation `id`. -/
def Manager.makesWatcher (m : Manager) (action : Action) (next : Manager)
    (index id watcher : Nat) : Prop :=
  ∃ reply call, action = .call index reply ∧ m.calls[index]? = some call ∧
    call.pc = .newWatcher id ∧ watcher = m.watchers.length ∧
    watcher < next.watchers.length

/-- What holds of a watcher from the step that makes it on. -/
structure WatcherSound (m : Manager) (index id watcher : Nat) : Prop where
  identity : IdentitySound m
  sole : SoleOwner m index id watcher
  fate : ∃ call, m.calls[index]? = some call ∧ WatcherFate m call id watcher

theorem watcherSound_made (sound : IdentitySound m) (bounded : WatchersMade m)
    (taken : m.step action = some next) (made : m.makesWatcher action next index id watcher) :
    WatcherSound next index id watcher := by
  have soundNext := sound.step taken
  obtain ⟨reply, call, rfl, caller, at_, rfl, inside⟩ := made
  simp only [Manager.step, caller, Manager.openStep, at_] at taken
  split at taken
  · cases taken
    exact absurd inside (Nat.lt_irrefl _)
  cases taken
  refine ⟨soundNext, ⟨inside, ?_, ?_⟩, _,
    getElem?_set_self (List.getElem?_eq_some_iff.mp caller).1,
    .held rfl rfl (by simp)⟩
  · intro other holder located holds
    rcases getElem?_set_cases located with ⟨rfl, rfl⟩ | ⟨_, before⟩
    · exact ⟨rfl, rfl⟩
    · exact absurd (bounded.calls other holder _ before holds) (Nat.lt_irrefl _)
  · intro other op present watches
    exact absurd (bounded.operations other op _ present watches) (Nat.lt_irrefl _)

theorem watcherSound_run (sound : WatcherSound m index id watcher)
    (run : Reaches Manager.step m later) : WatcherSound later index id watcher := by
  apply run.invariant
  · exact sound
  · intro state action next holds _ taken
    obtain ⟨identity, sole, call, caller, fate⟩ := holds
    exact ⟨identity.step taken, sole.step taken, fate.step identity taken caller⟩

end Ferretd.Workspaces

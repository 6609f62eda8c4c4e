import Ferretd.Workspace.ManagerInvariant

/-!
# Views of a step of the workspace manager

What one step does to the registry, that is to `byID`, `byRoot`, `opening` and the
generation, and what it does to the calls of `Open`.
-/

namespace Ferretd.Workspaces

open Library Function List

/-! ## The registry -/

/-- What the registry needs to know of an open operation. -/
structure Standing where
  root : Nat
  generation : Nat
  done : Bool
  err : GoError
  active : Bool

def OpenOperation.standing (op : OpenOperation) : Standing :=
  ⟨op.workspace.root, op.generation, op.done, op.err,
    op.active⟩

def Manager.standing (m : Manager) (id : Nat) : Option Standing :=
  (m.operations[id]?).map OpenOperation.standing

/-- The actions that take a workspace from the registry. -/
def Action.ends : Action → Bool
  | .close _ | .clear => true
  | _ => false

inductive RegistryMove (m next : Manager) (action : Action) : Prop
  | same (standing : next.standing = m.standing)
      (byRoot : next.byRoot = m.byRoot) (opening : next.opening = m.opening)
      (generation : next.generation = m.generation)
  | register {root id : Nat} (closed : m.byRoot root = none)
      (free : m.opening root = none) (fresh : m.standing id = none)
      (standing : next.standing = update m.standing id
        (some ⟨root, m.generation, false, [], false⟩))
      (byRoot : next.byRoot = m.byRoot)
      (opening : next.opening = update m.opening root (some id))
      (generation : next.generation = m.generation)
  | publish {before} {id : Nat} (present : m.standing id = some before)
      (undone : before.done = false) (valid : before.generation = m.generation)
      (standing : next.standing = update m.standing id
        (some { before with done := true, active := true }))
      (byRoot : next.byRoot = update m.byRoot before.root (some id))
      (opening : next.opening = update m.opening before.root none)
      (generation : next.generation = m.generation)
  | fail {call err before} {id index : Nat}
      (caller : m.calls[index]? = some call) (at_ : call.pc = .finishOpen id err)
      (present : m.standing id = some before) (undone : before.done = false)
      (standing : next.standing = update m.standing id
        (some { before with done := true, err := err }))
      (byRoot : next.byRoot = m.byRoot)
      (opening : next.opening =
        if m.opening before.root = some id then
          update m.opening before.root none
        else
          m.opening)
      (generation : next.generation = m.generation)
  | close {before} (ends : action.ends = true) {id : Nat}
      (present : m.standing id = some before) (active : before.active = true)
      (standing : next.standing = update m.standing id (some { before with active := false }))
      (byRoot : next.byRoot = update m.byRoot before.root none)
      (opening : next.opening = m.opening)
      (generation : next.generation = m.generation)
  | clear (ends : action.ends = true)
      (standing : ∀ id, next.standing id =
        (m.standing id).map fun before => { before with active := false })
      (byRoot : ∀ root, next.byRoot root = none) (opening : ∀ root, next.opening root = none)
      (generation : next.generation = m.generation + 1)

variable {entry : Entry}

namespace OpenOperation

variable {op : OpenOperation}

theorem active_of_registered (registered : op.registered = some entry) :
    op.active = decide (entry.state = .active) := by
  simp [active, registered]

theorem inactive_of_unpublished (unpublished : op.entry = none) :
    op.active = false := by
  simp [active, registered, unpublished]

theorem inactive_of_closing (published : op.entry = some entry)
    (closing : entry.state = .closing) : op.active = false := by
  cases listed : entry.listed <;>
    simp [active, registered, published, Option.filter, listed, closing]

end OpenOperation

namespace Manager

variable {m next : Manager} {id : Nat} {op : OpenOperation}

theorem standing_of_present (present : m.operations[id]? = some op) :
    m.standing id = some op.standing := by
  simp [standing, present]

variable (after : OpenOperation)

section

variable (present : m.operations[id]? = some op)
  (operations : next.operations = m.operations.set id after)
include present operations

theorem standing_set :
    next.standing = update m.standing id (some after.standing) := by
  funext other
  by_cases same : other = id
  · subst same
    rw [update_self, standing, operations,
      getElem?_set_self (List.getElem?_eq_some_iff.mp present).1]
    rfl
  have different : id ≠ other := fun equal => same equal.symm
  rw [update_of_ne same, standing, operations, getElem?_set_ne different]
  rfl

theorem standing_set_same (unseen : after.standing = op.standing) :
    next.standing = m.standing := by
  rw [standing_set after present operations, unseen, ← standing_of_present present,
    update_eq_self]

end

theorem standing_concat (fresh : OpenOperation)
    (operations : next.operations = m.operations ++ [fresh]) :
    next.standing = update m.standing m.operations.length (some fresh.standing) := by
  funext other
  by_cases same : other = m.operations.length
  · subst same
    rw [update_self, standing, operations, getElem?_concat_length]
    rfl
  rw [update_of_ne same, standing, standing, operations]
  rcases Nat.lt_or_gt_of_ne same with inside | outside
  · rw [getElem?_append_left inside]
  · rw [getElem?_eq_none_iff.mpr (by simp; omega), getElem?_eq_none_iff.mpr (by omega)]

end Manager

variable {pc : ClosePC} {reply : Reply} {watchers : List Watcher} {action : Action}
  {m next : Manager}

theorem OpenOperation.standing_close {op next : OpenOperation} (sound : EntrySound entry)
    (published : op.entry = some entry) (working : entry.worker = some pc)
    (move : CloseMove m op entry reply pc next watchers) :
    next.standing = op.standing := by
  have closing : entry.state = .closing := by
    apply sound.closing_of_busy
    intro idle
    rw [sound.idle idle] at working
    cases working
  have before := OpenOperation.inactive_of_closing published closing
  have goesOn : ∀ {after : OpenOperation} {moved : Entry},
      after.entry = some moved → moved.state = .closing →
        after.workspace.root = op.workspace.root →
        after.generation = op.generation → after.done = op.done →
        after.err = op.err → after.standing = op.standing := by
    intro after moved isMoved stays root generation done err
    have inactive := OpenOperation.inactive_of_closing isMoved stays
    simp [OpenOperation.standing, root, generation, done, err, inactive, before]
  cases move with
  | release =>
    refine goesOn rfl closing ?_ rfl rfl rfl
    show op.workspace.close.root = op.workspace.root
    unfold Workspace.close
    split <;> rfl
  | _ =>
    exact goesOn rfl closing rfl rfl rfl rfl

theorem Manager.clearOne_standing (op : OpenOperation) :
    (Manager.clearOne op).standing = { op.standing with active := false } := by
  unfold Manager.clearOne
  split
  next absent =>
    have inactive : op.active = false := by simp [OpenOperation.active, absent]
    simp [OpenOperation.standing, inactive]
  rename_i entry registered
  have known := (OpenOperation.entry_of_registered registered).1
  split
  next closing =>
    have inactive := OpenOperation.inactive_of_closing known closing
    simp [OpenOperation.standing, inactive]
  have inactive : (op.takeOver entry).active = false :=
    OpenOperation.inactive_of_closing rfl rfl
  simp only [OpenOperation.standing, inactive]
  rfl

theorem ManagerEffect.registry_move
    (sound : ManagerSound m) (effect : ManagerEffect m action next) :
    RegistryMove m next action := by
  cases effect with
  | @register _ call _ _ _ closed free =>
    refine .register closed free ?_
      (Manager.standing_concat (.new m.generation call.root) rfl) rfl rfl rfl
    simp [Manager.standing]
  | @publish _ call id found watcher _ _ caller at_ present _ valid =>
    have owns : call.pc.operation = some id := by rw [at_]; rfl
    obtain ⟨undone, _⟩ := sound.undone caller owns present
    exact .publish (Manager.standing_of_present present)
      undone valid
      (Manager.standing_set { found with
          done := true
          workspace := found.workspace.setReady watcher
          entry := some .new } present rfl) rfl rfl rfl
  | setFailed _ _ present =>
    exact .same (Manager.standing_set_same _ present rfl rfl) rfl rfl rfl
  | @finishOpen index call id found _ err caller at_ present =>
    have owns : call.pc.operation = some id := by rw [at_]; rfl
    obtain ⟨undone, _⟩ := sound.undone caller owns present
    exact .fail caller at_
      (Manager.standing_of_present present) undone
      (Manager.standing_set { found with done := true, err := err } present rfl) rfl
      rfl rfl
  | @beginClose op entry id present registered active =>
    have wasActive : op.standing.active = true := by
      show op.active = true
      rw [OpenOperation.active_of_registered registered]
      exact decide_eq_true active
    refine .close rfl (Manager.standing_of_present present) wasActive ?_ rfl rfl rfl
    have inactive : (op.takeOver entry).active = false :=
      OpenOperation.inactive_of_closing rfl rfl
    rw [Manager.standing_set _ present rfl]
    simp only [OpenOperation.standing, inactive]
    rfl
  | clear =>
    refine .clear rfl ?_ (fun _ => rfl) (fun _ => rfl) rfl
    intro id
    simp only [Manager.standing, getElem?_map, Option.map_map]
    congr 1
    funext op
    exact Manager.clearOne_standing op
  | @worker op entry _ _ after _ id present published working move =>
    have entrySound := (sound.entries id op entry present published).2
    exact .same
      (Manager.standing_set_same after present rfl
        (OpenOperation.standing_close entrySound published working move)) rfl rfl rfl
  | _ =>
    exact .same rfl rfl rfl rfl

/-! ## The calls -/

namespace OpenPC

/-- The open operation that a call owns or waits for. -/
def refers : OpenPC → Option Nat
  | .waitForOpen op => some op
  | pc => pc.operation

/-- The error with which a call is about to complete its operation. -/
def failure : OpenPC → Option GoError
  | .setFailed _ err | .finishOpen _ err => some err
  | _ => none

def workspace : OpenPC → Option Nat
  | .returned ws _ => ws
  | _ => none

end OpenPC

/-- One step of a call of `Open` for `root`. -/
inductive CallMove (m next : Manager) (root : Nat) (pc pc' : OpenPC) : Prop
  | found {id : Nat} (registered : m.byRoot root = some id)
      (byRoot : next.byRoot = m.byRoot) (after : pc' = .returned (some id) [])
  | waits {id : Nat} (closed : m.byRoot root = none)
      (opening : m.opening root = some id) (standing : next.standing = m.standing)
      (after : pc' = .waitForOpen id)
  | joined {found} {id : Nat} (at_ : pc = .waitForOpen id)
      (present : m.standing id = some found) (done : found.done = true)
      (succeeded : found.err = []) (byRoot : next.byRoot = m.byRoot)
      (after : pc' = .returned (some id) [])
  | register {id : Nat} (at_ : pc = .beginOpen)
      (present : ∃ fresh, next.standing id = some fresh ∧ fresh.root = root)
      (after : pc' = .newWatcher id)
  | publish {found} {id : Nat} (owns : pc.operation = some id)
      (present : m.standing id = some found)
      (byRoot : next.byRoot = update m.byRoot found.root (some id))
      (after : pc' = .returned (some id) [])
  | goesOn (refers : ∀ id, pc'.refers = some id → pc.refers = some id)
      (failure : ∀ err, pc'.failure = some err → err ≠ [] ∨ pc.failure = some err)
      (unreturned : pc'.workspace = none) (stays : ∀ id, pc' ≠ .waitForOpen id)

/-- One step of the calls of `Open`. -/
inductive CallsMove (m next : Manager) : Action → Prop
  | same {action : Action} (calls : next.calls = m.calls) : CallsMove m next action
  | openRoot {root} (calls : next.calls = m.calls ++ [⟨root, .find⟩]) :
      CallsMove m next (.openRoot root)
  | call {index call pc'} {reply : Reply} (caller : m.calls[index]? = some call)
      (calls : next.calls = m.calls.set index { call with pc := pc' })
      (move : CallMove m next call.root call.pc pc') :
      CallsMove m next (.call index reply)

namespace CallMove

variable {m next : Manager} {root : Nat} {reply : Reply} {pc pc' : OpenPC}

theorem of_openMove (move : OpenMove m root reply pc pc')
    (standing : next.standing = m.standing) (byRoot : next.byRoot = m.byRoot) :
    CallMove m next root pc pc' := by
  cases move with
  | found registered => exact .found registered byRoot rfl
  | @wait op closed opening =>
    exact .waits closed opening standing rfl
  | @joined op found present done succeeded =>
    exact .joined rfl (Manager.standing_of_present present) done succeeded byRoot rfl
  | unwatched | ended =>
    refine .goesOn (fun _ same => same) ?_ rfl nofun
    intro err failed
    cases failed
    exact Or.inl (by simp [GoError.join])
  | added | addFailed | loaded | loadFailed | live | cancelled | cleared =>
    exact .goesOn (fun _ same => same) nofun rfl nofun
  | _ =>
    exact .goesOn nofun nofun rfl nofun

end CallMove

theorem ManagerEffect.calls_move (effect : ManagerEffect m action next) :
    CallsMove m next action := by
  cases effect with
  | openRoot => exact .openRoot rfl
  | @goOn index call reply pc' caller _ move =>
    exact .call caller rfl (.of_openMove move rfl rfl)
  | @register index call reply caller at_ =>
    have fresh : ((m.register call.root).goOn index call
        (.newWatcher m.operations.length)).operations[m.operations.length]? =
        some (.new m.generation call.root) := by
      simp [Manager.register, Manager.goOn]
    exact .call caller rfl
      (.register at_ ⟨_, Manager.standing_of_present fresh, rfl⟩ rfl)
  | watch caller at_
  | closeWatcher caller at_ =>
    refine .call caller rfl ?_
    rw [at_]
    exact .goesOn (fun _ same => same) nofun rfl nofun
  | publish caller at_ present =>
    exact .call caller rfl
      (.publish (by rw [at_]; rfl) (Manager.standing_of_present present) rfl rfl)
  | setFailed caller at_ =>
    refine .call caller rfl ?_
    rw [at_]
    exact .goesOn (fun _ same => same) (fun _ same => Or.inr same) rfl nofun
  | finishOpen caller at_ =>
    refine .call caller rfl ?_
    rw [at_]
    exact .goesOn nofun nofun rfl nofun
  | _ => exact .same rfl

end Ferretd.Workspaces

import Ferretd.Documents.Identity
import Ferretd.Workspace.ManagerWatchers

/-!
# The workspace manager and the documents of its workspaces

What the manager does to the lifecycle of a workspace, it does to the store of its
documents.  Between such steps the workspace loads and mutates on its own.
-/

namespace Ferretd.Composition

open Library

structure WorkspaceStores where
  manager : Workspaces.Manager
  documents : Nat → Documents.Machine

inductive StoreAction where
  | manager (action : Workspaces.Action)
  | documents (id : Nat) (label : Documents.Label)

namespace WorkspaceStores

def new (hooks : Nat) : WorkspaceStores where
  manager := .new hooks
  documents := fun _ => .new

variable (mgr : Workspaces.Manager)

def workspace (id : Nat) : Option Workspaces.Workspace :=
  (mgr.operations[id]?).map Workspaces.OpenOperation.workspace

/-- The operation that the step of a call publishes. -/
def publishing : Workspaces.Action → Option Nat
  | .call index _ =>
    match mgr.calls[index]? with
    | some ⟨_, .commit id _⟩ =>
      (mgr.operations[id]?).bind fun found =>
        if found.generation = mgr.generation then some id else none
    | _ => none
  | _ => none

/-- What a change of the lifecycle does to the documents, other than a publication. -/
def follow (before after : Option Workspaces.Workspace) (m : Documents.Machine) :
    Documents.Machine :=
  match before, after with
  | some before, some after =>
    if after.state ≠ before.state then
      match after.state with
      | .failed => { m.setStore m.shared.store.setFailed with task := none }
      | .closed => m.setStore m.shared.store.close
      | _ => m
    else if after.closing && !before.closing then
      m.setStore m.shared.store.markClosing
    else
      m
  | _, _ => m

def own : Documents.Label → Bool
  | .open_ _ | .start _ _ | .step _ | .return_ | .closeWatch => true
  | .publish | .discard | .markClosing | .close => false

/-- `sites` are the places of the roots. -/
def step (sites : Nat → Documents.Site) (stores : WorkspaceStores) :
    StoreAction → Option WorkspaceStores
  | .manager action =>
    (stores.manager.step action).bind fun next =>
      match publishing stores.manager action with
      | none =>
        some ⟨next, fun id =>
          follow (workspace stores.manager id) (workspace next id) (stores.documents id)⟩
      | some id =>
        (workspace stores.manager id).bind fun loaded =>
          ((stores.documents id).step (sites loaded.root) .publish).map fun m =>
            ⟨next, Function.update stores.documents id m⟩
  | .documents id label =>
    if own label then
      (workspace stores.manager id).bind fun found =>
        ((stores.documents id).step (sites found.root) label).map fun m =>
          { stores with documents := Function.update stores.documents id m }
    else
      none

end WorkspaceStores

/-! ## One step -/

/-- What a step of the manager does to the workspace of one operation. -/
inductive WorkspaceMove (before : Workspaces.Workspace) : Workspaces.Workspace → Prop
  | same : WorkspaceMove before before
  | failed {err} : WorkspaceMove before (before.setFailed err)
  | marked : WorkspaceMove before before.markClosing
  | closed : WorkspaceMove before before.close

def FollowsManager (mgr next : Workspaces.Manager) : Prop :=
  ∀ (id : Nat) (after : Workspaces.OpenOperation), next.operations[id]? = some after →
    (∃ before, mgr.operations[id]? = some before ∧
      WorkspaceMove before.workspace after.workspace) ∨
    mgr.operations[id]? = none ∧ ∃ root, after.workspace = .new root

inductive StoresEffect (sites : Nat → Documents.Site) (stores : WorkspaceStores) :
    StoreAction → WorkspaceStores → Prop
  | manager {action next} (taken : stores.manager.step action = some next)
      (follows : FollowsManager stores.manager next) :
      StoresEffect sites stores (.manager action) ⟨next, fun id =>
        WorkspaceStores.follow (WorkspaceStores.workspace stores.manager id)
          (WorkspaceStores.workspace next id) (stores.documents id)⟩
  | publish {found content}
      (action : Workspaces.Action) (next : Workspaces.Manager) (id watcher : Nat)
      (taken : stores.manager.step action = some next)
      (present : stores.manager.operations[id]? = some found)
      (operations : next.operations = stores.manager.operations.set id { found with
          done := true
          workspace := found.workspace.setReady watcher
          entry := some .new })
      (loaded : (stores.documents id).task = some (.loading (.done (.ok content)))) :
      StoresEffect sites stores (.manager action) ⟨next, Function.update stores.documents id
        { (stores.documents id).setStore
            ((stores.documents id).shared.store.setReady content) with task := none }⟩
  | documents {label : Documents.Label} {found m} {id : Nat}
      (isOwn : WorkspaceStores.own label = true)
      (present : stores.manager.operations[id]? = some found)
      (taken : (stores.documents id).step (sites found.workspace.root) label = some m) :
      StoresEffect sites stores (.documents id label)
        { stores with documents := Function.update stores.documents id m }

variable {entry : Workspaces.Entry} {reply : Workspaces.Reply} {pc : Workspaces.ClosePC}
  {watchers : List Workspaces.Watcher} {before after : Workspaces.Workspace}
  {label : Documents.Label} {hooks index watcher : Nat} {later : WorkspaceStores}
  {mgr next : Workspaces.Manager}

theorem WorkspaceMove.of_close {operation next : Workspaces.OpenOperation}
    (move : Workspaces.CloseMove mgr operation entry reply pc next watchers) :
    WorkspaceMove operation.workspace next.workspace := by
  cases move with
  | release => exact .closed
  | _ => exact .same

theorem WorkspaceMove.of_clearOne (operation : Workspaces.OpenOperation) :
    WorkspaceMove operation.workspace (Workspaces.Manager.clearOne operation).workspace := by
  unfold Workspaces.Manager.clearOne
  split
  · exact .same
  · split
    · exact .same
    · exact .marked

variable {action : Workspaces.Action}

theorem FollowsManager.of_effect (effect : Workspaces.ManagerEffect mgr action next)
    (silent : WorkspaceStores.publishing mgr action = none) :
    FollowsManager mgr next := by
  intro id after located
  have set : ∀ {changed : Nat} {found moved : Workspaces.OpenOperation},
      mgr.operations[changed]? = some found →
      (mgr.operations.set changed moved)[id]? = some after →
      WorkspaceMove found.workspace moved.workspace →
        (∃ before, mgr.operations[id]? = some before ∧
          WorkspaceMove before.workspace after.workspace) ∨
        mgr.operations[id]? = none ∧ ∃ root, after.workspace = .new root := by
    intro changed found moved present isAfter move
    rcases getElem?_set_cases isAfter with ⟨rfl, rfl⟩ | ⟨_, before⟩
    · exact .inl ⟨found, present, move⟩
    · exact .inl ⟨after, before, .same⟩
  cases effect with
  | @register _ call =>
    rcases getElem?_concat_cases located with ⟨rfl, rfl⟩ | before
    · exact .inr ⟨by simp, call.root, rfl⟩
    · exact .inl ⟨after, before, .same⟩
  | @publish _ call _ _ _ _ _ caller at_ present _ valid =>
    obtain ⟨root, pc⟩ := call
    subst at_
    simp [WorkspaceStores.publishing, caller, present, valid] at silent
  | setFailed _ _ present =>
    exact set present located (.failed)
  | finishOpen _ _ present =>
    exact set present located .same
  | beginClose present => exact set present located .marked
  | clear =>
    rw [List.getElem?_map] at located
    obtain ⟨before, present, rfl⟩ := Option.map_eq_some_iff.mp located
    exact .inl ⟨before, present, .of_clearOne before⟩
  | worker present _ _ move =>
    exact set present located (.of_close move)
  | _ =>
    exact .inl ⟨after, located, .same⟩

variable {id : Nat}

theorem publishing_some (publishes : WorkspaceStores.publishing mgr action = some id)
    (taken : mgr.step action = some next) :
    ∃ found watcher, mgr.operations[id]? = some found ∧
      next.operations = mgr.operations.set id { found with
          done := true
          workspace := found.workspace.setReady watcher
          entry := some .new } := by
  cases action with
  | call =>
    simp only [WorkspaceStores.publishing] at publishes
    split at publishes
    next root operation watcher caller =>
      obtain ⟨found, present, valid⟩ := Option.bind_eq_some_iff.mp publishes
      split at valid
      next current =>
        cases valid
        simp only [Workspaces.Manager.step, caller, Workspaces.Manager.openStep, present] at taken
        split at taken
        next isFound watched =>
          cases isFound
          rw [if_neg (not_not.mpr current)] at taken
          cases taken
          exact ⟨found, watcher, present, rfl⟩
        · cases taken
      · cases valid
    · cases publishes
  | _ => cases publishes

theorem operations_grow (taken : mgr.step action = some next)
    (absent : next.operations[id]? = none) : mgr.operations[id]? = none := by
  have longer : mgr.operations.length ≤ next.operations.length := by
    cases Workspaces.ManagerEffect.of_step taken with
    | register => simp [Workspaces.Manager.goOn, Workspaces.Manager.register]
    | publish | setFailed | finishOpen | beginClose | clear | worker =>
      simp [Workspaces.Manager.goOn, Workspaces.Manager.publish,
        Workspaces.Manager.finishOpen, Workspaces.Manager.setOperation]
    | _ => exact Nat.le_refl _
  rw [List.getElem?_eq_none_iff] at absent ⊢
  exact Nat.le_trans longer absent

variable {stores : WorkspaceStores} {sites : Nat → Documents.Site}

theorem StoresEffect.of_step {next : WorkspaceStores} {action : StoreAction}
    (taken : stores.step sites action = some next) :
    StoresEffect sites stores action next := by
  cases action with
  | manager action =>
    obtain ⟨mgr, moved, rest⟩ := Option.bind_eq_some_iff.mp taken
    split at rest
    next silent =>
      cases rest
      exact .manager moved (.of_effect (Workspaces.ManagerEffect.of_step moved) silent)
    rename_i id publishes
    obtain ⟨ws, _, published⟩ := Option.bind_eq_some_iff.mp rest
    obtain ⟨m, stepped, rfl⟩ := Option.map_eq_some_iff.mp published
    obtain ⟨found, watcher, present, operations⟩ := publishing_some publishes moved
    cases Documents.MachineEffect.of_step stepped with
    | @loaded content task =>
      exact .publish action mgr id watcher moved present operations task
  | documents id label =>
    simp only [WorkspaceStores.step] at taken
    split at taken
    next isOwn =>
      obtain ⟨ws, known, rest⟩ := Option.bind_eq_some_iff.mp taken
      obtain ⟨found, present, rfl⟩ := Option.map_eq_some_iff.mp known
      obtain ⟨m, stepped, rfl⟩ := Option.map_eq_some_iff.mp rest
      exact .documents isOwn present stepped
    · cases taken

/-! ## The invariant -/

/-- The store has the lifecycle that the manager has for its workspace. -/
structure Agrees (ws : Workspaces.Workspace) (store : Documents.Store) : Prop where
  state : store.state = ws.state
  closing : store.closing = ws.closing
  released : store.state = .closed → store.documents = ∅

variable {m : Documents.Machine}

theorem Agrees.move (agrees : Agrees before m.shared.store) (move : WorkspaceMove before after) :
    Agrees after (WorkspaceStores.follow (some before) (some after) m).shared.store := by
  obtain ⟨state, closing, released⟩ := agrees
  cases move with
  | same =>
    simp only [WorkspaceStores.follow, ne_eq, not_true_eq_false, if_false, Bool.and_not_self,
      Bool.false_eq_true]
    exact ⟨state, closing, released⟩
  | failed =>
    simp only [WorkspaceStores.follow]
    split
    · exact ⟨rfl, closing, nofun⟩
    rename_i same
    have failed : before.state = .failed := (not_not.mp same).symm
    simp only [Workspaces.Workspace.setFailed, Bool.and_not_self, Bool.false_eq_true, if_false]
    exact ⟨state.trans failed, closing, released⟩
  | marked =>
    simp only [WorkspaceStores.follow, Workspaces.Workspace.markClosing, ne_eq,
      not_true_eq_false, if_false, Bool.true_and, Bool.not_eq_true']
    split
    · exact ⟨state, rfl, released⟩
    next already =>
      exact ⟨state, closing.trans (by simpa using already), released⟩
  | closed =>
    simp only [WorkspaceStores.follow]
    by_cases already : before.state = .closed
    · simp only [Workspaces.Workspace.close, already, if_true, ne_eq, not_true_eq_false,
        if_false, Bool.and_not_self, Bool.false_eq_true]
      exact ⟨state, closing, released⟩
    have open_ : m.shared.store.state ≠ .closed := by
      rw [state]
      exact already
    simp only [Workspaces.Workspace.close, already, if_false, ne_eq]
    rw [if_pos (fun same => already same.symm)]
    simp only [Documents.Machine.setStore, Documents.Store.close, open_, if_false]
    exact ⟨rfl, closing, fun _ => rfl⟩

theorem Agrees.own {site : Documents.Site} {ws : Workspaces.Workspace}
    {next : Documents.Machine} (agrees : Agrees ws m.shared.store)
    (isOwn : WorkspaceStores.own label = true) (taken : m.step site label = some next) :
    Agrees ws next.shared.store := by
  have operates : ∀ {env : Documents.Environment} {op : Documents.Op}
      {answer : op.Answer} {shared : Documents.Shared},
      m.shared.perform site env op = some (answer, shared) →
        Agrees ws shared.store := by
    intro env op answer shared performed
    have move := Documents.StoreMove.of_perform performed
    generalize shared.store = after at move
    cases move with
    | kept => exact agrees
    | @document key explicit admitted discovered _ ready =>
      have frame := Documents.Store.commitDocument_frame m.shared.store key explicit
        admitted discovered
      refine ⟨frame.1.trans agrees.state, frame.2.trans agrees.closing, fun closed => ?_⟩
      rw [frame.1, ready] at closed
      cases closed
    | @tree subtree content _ ready =>
      have frame := Documents.Store.applyContent_frame m.shared.store subtree content
      refine ⟨frame.state.trans agrees.state, frame.closing.trans agrees.closing,
        fun closed => ?_⟩
      rw [frame.state, ready] at closed
      cases closed
  cases Documents.MachineEffect.of_step taken with
  | loads _ performed | mutates _ performed =>
    exact operates performed
  | loaded | discarded | marked | closed => cases isOwn
  | _ => exact agrees

/-- Where the close of an entry has released the workspace, it is closed. -/
def ReleasedClosed (mgr : Workspaces.Manager) : Prop :=
  ∀ (id : Nat) (operation : Workspaces.OpenOperation) (entry : Workspaces.Entry),
    mgr.operations[id]? = some operation → operation.entry = some entry →
      entry.released = true → operation.workspace.state = .closed

structure StoresSound (stores : WorkspaceStores) : Prop where
  identity : Workspaces.IdentitySound stores.manager
  released : ReleasedClosed stores.manager
  agrees :
    ∀ (id : Nat) (operation : Workspaces.OpenOperation),
      stores.manager.operations[id]? = some operation →
        Agrees operation.workspace (stores.documents id).shared.store
  fresh : ∀ id, stores.manager.operations[id]? = none → stores.documents id = .new

theorem workspace_close_state (ws : Workspaces.Workspace) :
    ws.close.state = .closed := by
  unfold Workspaces.Workspace.close
  split
  next closed => exact closed
  · rfl

theorem ReleasedClosed.step (released : ReleasedClosed mgr)
    (sound : Workspaces.ManagerSound mgr) (taken : mgr.step action = some next) :
    ReleasedClosed next := by
  intro id operation entry located isEntry isReleased
  cases Workspaces.ManagerEffect.of_step taken with
  | register =>
    rcases getElem?_concat_cases located with ⟨_, rfl⟩ | before
    · cases isEntry
    · exact released id operation entry before isEntry isReleased
  | publish | beginClose =>
    rcases getElem?_set_cases located with ⟨_, rfl⟩ | ⟨_, before⟩
    · cases isEntry
      cases isReleased
    · exact released id operation entry before isEntry isReleased
  | setFailed caller at_ present =>
    rcases getElem?_set_cases located with ⟨_, rfl⟩ | ⟨_, before⟩
    · have unpublished := (sound.undone caller (by rw [at_]; rfl) present).2
      rw [unpublished] at isEntry
      cases isEntry
    · exact released id operation entry before isEntry isReleased
  | @finishOpen _ _ _ found _ _ _ _ present =>
    rcases getElem?_set_cases located with ⟨rfl, rfl⟩ | ⟨_, before⟩
    · exact released _ found entry present isEntry isReleased
    · exact released id operation entry before isEntry isReleased
  | clear =>
    rw [List.getElem?_map] at located
    obtain ⟨before, present, rfl⟩ := Option.map_eq_some_iff.mp located
    unfold Workspaces.Manager.clearOne at isEntry ⊢
    split
    next none =>
      rw [none] at isEntry
      exact released id before entry present isEntry isReleased
    rename_i known registered
    rw [registered] at isEntry
    dsimp only at isEntry
    split
    next closing =>
      rw [if_pos closing] at isEntry
      exact released id before entry present isEntry isReleased
    rename_i active
    rw [if_neg active] at isEntry
    cases isEntry
    cases isReleased
  | @worker found known pc _ _ _ closed present published working move =>
    rcases getElem?_set_cases located with ⟨rfl, rfl⟩ | ⟨_, before⟩
    · have earlier : pc.released = true → found.workspace.state = .closed := by
        intro was
        refine released _ found known present published ?_
        rw [Workspaces.Entry.released, working]
        exact was
      cases move with
      | release => exact workspace_close_state found.workspace
      | finish | delete => exact earlier rfl
      | _ =>
        cases isEntry
        cases isReleased
    · exact released id operation entry before isEntry isReleased
  | _ =>
    exact released id operation entry located isEntry isReleased

theorem storesSound_new (hooks : Nat) : StoresSound (.new hooks) := by
  refine ⟨Workspaces.identitySound_new hooks, ?_, ?_, fun _ _ => rfl⟩
  · intro id operation entry present
    simp [WorkspaceStores.new, Workspaces.Manager.new] at present
  · intro id operation present
    simp [WorkspaceStores.new, Workspaces.Manager.new] at present

theorem agrees_new (root : Nat) : Agrees (.new root) Documents.Machine.new.shared.store :=
  ⟨rfl, rfl, nofun⟩

theorem StoresSound.step {next : WorkspaceStores} {action : StoreAction}
    (sound : StoresSound stores) (taken : stores.step sites action = some next) :
    StoresSound next := by
  cases StoresEffect.of_step taken with
  | manager moved follows =>
    refine ⟨sound.identity.step moved, sound.released.step sound.identity.entries moved, ?_, ?_⟩
    · intro id operation present
      dsimp only at present ⊢
      rcases follows id operation present with ⟨before, known, move⟩ | ⟨none, root, isNew⟩
      · rw [WorkspaceStores.workspace, WorkspaceStores.workspace, known, present]
        exact (sound.agrees id before known).move move
      · rw [WorkspaceStores.workspace, none, isNew, sound.fresh id none]
        exact agrees_new root
    · intro id none
      dsimp only at none ⊢
      rw [WorkspaceStores.workspace, operations_grow moved none]
      exact sound.fresh id (operations_grow moved none)
  | @publish found _ _ _ id _ moved present operations =>
    refine ⟨sound.identity.step moved, sound.released.step sound.identity.entries moved, ?_, ?_⟩
    · intro other operation located
      dsimp only at located ⊢
      rw [operations] at located
      rcases getElem?_set_cases located with ⟨rfl, rfl⟩ | ⟨different, before⟩
      · rw [Function.update_self]
        exact ⟨rfl, (sound.agrees _ found present).closing, nofun⟩
      · rw [Function.update_of_ne different]
        exact sound.agrees other operation before
    · intro other none
      have known := operations_grow moved none
      have different : other ≠ id := by
        rintro rfl
        rw [present] at known
        cases known
      dsimp only
      rw [Function.update_of_ne different]
      exact sound.fresh other known
  | @documents _ found _ id isOwn present stepped =>
    refine ⟨sound.identity, sound.released, ?_, ?_⟩
    · intro other operation located
      by_cases same : other = id
      · subst same
        rw [present] at located
        cases located
        dsimp only
        rw [Function.update_self]
        exact (sound.agrees other found present).own isOwn stepped
      · dsimp only
        rw [Function.update_of_ne same]
        exact sound.agrees other operation located
    · intro other none
      have different : other ≠ id := by
        rintro rfl
        rw [present] at none
        cases none
      dsimp only
      rw [Function.update_of_ne different]
      exact sound.fresh other none

theorem storesSound_run (reached : Reaches (WorkspaceStores.step sites) (.new hooks) stores) :
    StoresSound stores := by
  apply reached.invariant
  · exact storesSound_new hooks
  · intro state action next sound _ taken
    exact sound.step taken

theorem manager_reaches (run : Reaches (WorkspaceStores.step sites) stores later) :
    Reaches Workspaces.Manager.step stores.manager later.manager := by
  induction run with
  | start => exact Run.start
  | next _ _ _ taken ih =>
    cases StoresEffect.of_step taken with
    | @manager own next moved | publish own next _ _ moved =>
      exact Run.next own ih trivial moved
    | documents => exact ih

/-! ## The theorem -/

/-- No map of the manager leads to the workspace of the operation. -/
structure Unregistered (mgr : Workspaces.Manager) (id : Nat) : Prop where
  byID : ∀ operation, mgr.operations[id]? = some operation → operation.entry = none
  byRoot : ∀ root, mgr.byRoot root ≠ some id
  opening : ∀ root, mgr.opening root ≠ some id

/-- The watcher that the call at `index` has made for the operation `id` has one owner.
The call holds it, or the call fails and has closed it, or the entry of the workspace owns
it and has closed it, with its event loop ended, before its close hooks are called.  A
failed call leaves nothing behind when it has returned. -/
structure WatcherOwned (mgr : Workspaces.Manager) (index id watcher : Nat) : Prop where
  sole : Workspaces.SoleOwner mgr index id watcher
  fate :
    ∃ call, mgr.calls[index]? = some call ∧
      Workspaces.WatcherFate mgr call id watcher ∧
      (call.pc.givesUp id = true → call.pc.operation = none → Unregistered mgr id)

/-- Where a close has released the retained state, nothing is retained and every commit is
refused. -/
def ReleasedRefuses (stores : WorkspaceStores) : Prop :=
  ∀ (id : Nat) (operation : Workspaces.OpenOperation) (entry : Workspaces.Entry),
    stores.manager.operations[id]? = some operation → operation.entry = some entry →
      entry.released = true →
      (stores.documents id).shared.store.documents = ∅ ∧
      ∀ env : Documents.Environment,
        (∀ key explicit admitted discovered,
          (stores.documents id).shared.commitDocument env key explicit admitted
            discovered = (.error [.workspaceClosed], (stores.documents id).shared)) ∧
        ∀ subtree content, ∃ err, err ≠ [] ∧
          (stores.documents id).shared.commitTree env subtree content =
            (err, (stores.documents id).shared)

theorem StoresSound.refuses (sound : StoresSound stores) : ReleasedRefuses stores := by
  intro id operation entry present isEntry isReleased
  have agrees := sound.agrees id operation present
  have closed : (stores.documents id).shared.store.state = .closed :=
    agrees.state.trans (sound.released id operation entry present isEntry isReleased)
  refine ⟨agrees.released closed, fun env => ⟨?_, ?_⟩⟩
  · intro key explicit admitted discovered
    simp [Documents.Shared.commitDocument, closed]
  intro subtree content
  by_cases cancelled : env.ctxErr = []
  · exact ⟨[.workspaceClosed], by simp, by
      simp [Documents.Shared.commitTree, cancelled, closed]⟩
  · exact ⟨env.ctxErr, cancelled, by
      simp [Documents.Shared.commitTree, cancelled]⟩

theorem watcherOwned (sound : Workspaces.WatcherSound mgr index id watcher) :
    WatcherOwned mgr index id watcher := by
  obtain ⟨identity, sole, call, caller, fate⟩ := sound
  refine ⟨sole, call, caller, fate, ?_⟩
  intro fails ceased
  cases fate with
  | held owns =>
    rw [ceased] at owns
    cases owns
  | discarded _ _ present unpublished isOver =>
    have done := isOver ceased
    have known := Workspaces.Manager.standing_of_present present
    refine ⟨?_, ?_, ?_⟩
    · intro found located
      rw [present] at located
      cases located
      exact unpublished
    · intro root registered
      obtain ⟨found, located, active, _⟩ := identity.registry.rooted root id registered
      rw [known] at located
      cases located
      rw [Workspaces.OpenOperation.standing,
        Workspaces.OpenOperation.inactive_of_unpublished unpublished] at active
      cases active
    · intro root registered
      obtain ⟨found, located, undone, _⟩ := identity.registry.opening root id registered
      rw [known] at located
      cases located
      rw [Workspaces.OpenOperation.standing, done] at undone
      cases undone
  | published returned =>
    rw [returned] at fails
    cases fails

/-- From the step that makes a watcher on, in every interleaving. -/
theorem watcher_ownership {next : WorkspaceStores}
    (reached : Reaches (WorkspaceStores.step sites) (.new hooks) stores)
    (taken : stores.step sites (.manager action) = some next)
    (made : stores.manager.makesWatcher action next.manager index id watcher)
    (run : Reaches (WorkspaceStores.step sites) next later) :
    WatcherOwned later.manager index id watcher ∧ ReleasedRefuses later := by
  have sound := storesSound_run reached
  have bounded : Workspaces.WatchersMade stores.manager := by
    have managed : Reaches Workspaces.Manager.step (.new hooks) stores.manager :=
      manager_reaches reached
    apply managed.invariant
    · exact Workspaces.watchersMade_new hooks
    · intro state own after holds _ moved
      exact holds.step moved
  have moved : stores.manager.step action = some next.manager := by
    cases StoresEffect.of_step taken with
    | manager moved | publish _ _ _ _ moved => exact moved
  have soundMade := Workspaces.watcherSound_made sound.identity bounded moved made
  have soundLater := Workspaces.watcherSound_run soundMade (manager_reaches run)
  have storesLater : StoresSound later := by
    apply run.invariant
    · exact sound.step taken
    · intro state own after holds _ stepped
      exact holds.step stepped
  exact ⟨watcherOwned soundLater, storesLater.refuses⟩

/-! ## One workspace -/

/-- A call of `Open` comes to the creation of its watcher. -/
def beforeWatcher : List StoreAction :=
  [.manager (.openRoot 0), .manager (.call 0 .quiet), .manager (.call 0 .quiet)]

/-- The workspace loads one file and is published; then it is closed, up to the release of
what it retains, with a reconciliation still waiting for its first step. -/
def afterWatcher : List StoreAction :=
  .manager (.call 0 .quiet) :: .documents 0 (.open_ 2) ::
    List.replicate 12 (.documents 0 (.step
      ((Documents.oneFile Documents.plainName).environment [] fun _ => []))) ++
    [.manager (.call 0 .quiet), .manager (.call 0 .quiet), .manager (.call 0 .quiet),
      .documents 0 (.start (.reconcileTree ['.']) 2), .manager (.close 0),
      .manager (.worker 0 .quiet), .manager (.watcherExits 0), .manager (.worker 0 .quiet),
      .manager (.worker 0 .quiet), .manager (.worker 0 .quiet), .manager (.worker 0 .quiet),
      .manager (.worker 0 .quiet)]

/-- The entry of the first operation has released its workspace, and the watcher has been
closed. -/
def releasedFirst (stores : WorkspaceStores) : Bool :=
  match (stores.manager.operations[0]?).bind (·.entry), stores.manager.watchers[0]? with
  | some entry, some watcher => entry.released && watcher.closed && !watcher.looping
  | _, _ => false

theorem watcher_ownership_closed :
    ∃ later, Reaches (WorkspaceStores.step fun _ => Documents.sampleSite) (.new 1) later ∧
      releasedFirst later = true ∧ WatcherOwned later.manager 0 0 0 ∧ ReleasedRefuses later := by
  have evaluated : (execute (WorkspaceStores.step fun _ => Documents.sampleSite) (.new 1)
      beforeWatcher).bind (fun stores =>
        (stores.step (fun _ => Documents.sampleSite) (.manager (.call 0 .quiet))).bind
          fun next => (execute (WorkspaceStores.step fun _ => Documents.sampleSite) next
            afterWatcher).map fun later =>
              decide (stores.manager.calls[0]? = some ⟨0, .newWatcher 0⟩ ∧
                stores.manager.watchers.length = 0 ∧ 0 < next.manager.watchers.length) &&
              releasedFirst later) = some true := by
    decide +kernel
  obtain ⟨stores, reached, rest⟩ := Option.bind_eq_some_iff.mp evaluated
  obtain ⟨next, taken, further⟩ := Option.bind_eq_some_iff.mp rest
  obtain ⟨later, run, passed⟩ := Option.map_eq_some_iff.mp further
  obtain ⟨facts, isReleased⟩ := Bool.and_eq_true_iff.mp passed
  obtain ⟨caller, none, inside⟩ := of_decide_eq_true facts
  have toStores := reaches_of_execute reached
  have toLater := reaches_of_execute run
  refine ⟨later, (Run.next _ toStores trivial taken).trans toLater, isReleased,
    watcher_ownership toStores taken ⟨.quiet, ⟨0, .newWatcher 0⟩, rfl, caller, rfl, none.symm,
      inside⟩ toLater⟩

end Ferretd.Composition

import Ferretd.Documents.Machine
import Ferretd.Documents.Tree

/-!
# Discovery in a tree that does not change

The answers of the file system are truthful about a tree: they may fail, but a failure
never says that something is missing which is there.  Then discovery either fails or
finds what the tree says.
-/

namespace Ferretd.Documents

open Library

/-- The answers are those of the tree, or failures. -/
structure Environment.Truthful (env : Environment) (tree : Tree) : Prop where
  context : env.ctxErr.isOnlyNotExist = false
  readDir_lists :
    ∀ dir listing, tree.kind dir = some .directory →
      env.readDir dir = .ok listing → tree.Lists dir listing
  readDir_present :
    ∀ dir err, tree.kind dir = some .directory →
      env.readDir dir = .error err → err.isOnlyNotExist = false
  lstat_shows :
    ∀ dir name info, tree.kind dir = some .directory →
      env.lstat (dir ++ [name]) = .ok info →
        tree.info (dir ++ [name]) = some info
  lstat_present :
    ∀ key err, key ∈ tree.nodes → env.lstat key = .error err → err.isOnlyNotExist = false
  open_present :
    ∀ key err, key ∈ tree.nodes → env.openFile key = .error err →
      err.isOnlyNotExist = false
  handle_shows :
    ∀ key handle info, key ∈ tree.nodes → env.openFile key = .ok handle →
      env.handleInfo handle = .ok info → tree.info key = some info
  absolute_shows :
    ∀ dir name info, tree.kind dir = some .directory →
      env.lstatAbsolute (dir ++ [name]) = .ok info →
        tree.info (dir ++ [name]) = some info
  absolute_present :
    ∀ key err, key ∈ tree.nodes → env.lstatAbsolute key = .error err →
      err.is .notExist = false
  directoryInfo_present :
    ∀ dir err, tree.kind dir = some .directory →
      env.directoryInfo dir = .error err → err.isOnlyNotExist = false
  directoryInfoAfter_present :
    ∀ dir err, tree.kind dir = some .directory →
      env.directoryInfoAfter dir = .error err → err.isOnlyNotExist = false
  backendAdd_present :
    ∀ dir, tree.kind dir = some .directory →
      (env.backendAdd dir).isOnlyNotExist = false

/-- Nothing that discovery asks for fails. -/
structure Environment.Serves (env : Environment) (tree : Tree) : Prop where
  context : env.ctxErr = []
  openRoot : env.openRoot = []
  closeRoot : env.closeRoot = []
  readDir :
    ∀ dir, tree.listed dir = true →
      ∃ listing, env.readDir dir = .ok listing
  lstat : ∀ key ∈ tree.nodes, ∃ info, env.lstat key = .ok info
  lstat_missing :
    ∀ dir name, tree.kind dir = some .directory →
      dir ++ [name] ∉ tree.nodes →
        ∃ err, env.lstat (dir ++ [name]) = .error err ∧ err.isOnlyNotExist = true
  directoryInfo :
    ∀ dir, tree.kind dir = some .directory →
      ∃ identity, env.directoryInfo dir = .ok identity ∧
        env.directoryInfoAfter dir = .ok identity
  backendAdd : ∀ dir, env.backendAdd dir = []
  backendRemove : ∀ dir, env.backendRemove dir = []

/-! ## A tree without failures -/

variable {unlinked : Handle → Content} {ctxErr : GoError} {op : Op} {shared second third : Shared}

theorem Tree.environment_truthful {tree : Tree} (context : ctxErr.isOnlyNotExist = false) :
    (tree.environment ctxErr unlinked).Truthful tree where
  context := context
  readDir_lists := by
    intro dir listing isDirectory read
    simp only [Tree.environment, isDirectory] at read
    split at read
    · cases read
    · cases read
      exact Tree.listing_lists dir
  readDir_present := by
    intro dir err isDirectory read
    simp only [Tree.environment, isDirectory] at read
    split at read
    · cases read
      rfl
    · cases read
  lstat_shows := by
    intro dir name info _ inspected
    simp only [Tree.environment] at inspected
    split at inspected
    next known =>
      cases inspected
      exact known
    · cases inspected
  lstat_present := by
    intro key err present inspected
    obtain ⟨kind, known⟩ := Tree.kind_of_mem present
    obtain ⟨info, located, _⟩ := Tree.kind_some known
    simp [Tree.environment, located] at inspected
  open_present := by
    intro key err present opened
    obtain ⟨kind, known⟩ := Tree.kind_of_mem present
    obtain ⟨info, located, _⟩ := Tree.kind_some known
    simp [Tree.environment, located] at opened
  handle_shows := by
    intro key handle info present opened informed
    obtain ⟨kind, known⟩ := Tree.kind_of_mem present
    obtain ⟨shown, located, _⟩ := Tree.kind_some known
    simp only [Tree.environment, located, Except.ok.injEq] at opened
    subst opened
    simp only [Tree.environment, located, if_true, Except.ok.injEq] at informed
    rw [← informed]
    exact located
  absolute_shows := by
    intro dir name info _ inspected
    simp only [Tree.environment] at inspected
    split at inspected
    next known =>
      cases inspected
      exact known
    · cases inspected
  absolute_present := by
    intro key err present inspected
    obtain ⟨kind, known⟩ := Tree.kind_of_mem present
    obtain ⟨info, located, _⟩ := Tree.kind_some known
    simp [Tree.environment, located] at inspected
  directoryInfo_present := by
    intro dir err isDirectory read
    obtain ⟨⟨kind, identity⟩, located, rfl⟩ := Tree.kind_some isDirectory
    simp [Tree.environment, located] at read
  directoryInfoAfter_present := by
    intro dir err isDirectory read
    obtain ⟨⟨kind, identity⟩, located, rfl⟩ := Tree.kind_some isDirectory
    simp [Tree.environment, located] at read
  backendAdd_present := by
    intro dir _
    rfl

theorem Tree.environment_serves {tree : Tree}
    (valid : ∀ dir, tree.listed dir = true → validPath dir = true) :
    (tree.environment [] unlinked).Serves tree where
  context := rfl
  openRoot := rfl
  closeRoot := rfl
  readDir := by
    intro dir isListed
    exact ⟨tree.listing dir, by
      simp [Tree.environment, valid dir isListed, Tree.listed_directory isListed]⟩
  lstat := by
    intro key present
    obtain ⟨kind, known⟩ := Tree.kind_of_mem present
    obtain ⟨info, located, _⟩ := Tree.kind_some known
    exact ⟨info, by simp [Tree.environment, located]⟩
  lstat_missing := by
    intro dir name _ absent
    have unknown : tree.info (dir ++ [name]) = none := by
      rw [Tree.info, AList.lookup_eq_none.mpr absent]
      rfl
    exact ⟨[.notExist], by simp [Tree.environment, unknown], rfl⟩
  directoryInfo := by
    intro dir isDirectory
    obtain ⟨⟨kind, identity⟩, located, rfl⟩ := Tree.kind_some isDirectory
    exact ⟨identity, by simp [Tree.environment, located], by simp [Tree.environment, located]⟩
  backendAdd := fun _ => rfl
  backendRemove := fun _ => rfl

/-! ## Programs under fixed answers -/

/-- Every operation is answered by one and the same environment. -/
def serving (site : Site) (env : Environment) : Semantics Op Op.Answer Shared where
  permitted _ op := op ≠ .diverge
  handles shared op answer after := shared.perform site env op = some (answer, after)

/-- Run a program to its end under fixed answers. -/
def Shared.evaluate {Value : Type} (site : Site) (env : Environment) :
    Shared → Program Op Op.Answer Value → Option (Value × Shared)
  | shared, .done value => some (value, shared)
  | shared, .call op next =>
    match shared.perform site env op with
    | none => none
    | some (answer, after) => evaluate site env after (next answer)

theorem Shared.perform_isSome (site : Site) (env : Environment) (shared : Shared)
    (converges : op ≠ .diverge) :
    ∃ answer after, shared.perform site env op = some (answer, after) := by
  cases op with
  | diverge => exact absurd rfl converges
  | _ => exact ⟨_, _, rfl⟩

theorem Shared.evaluate_of_ensures {Value : Type} {site : Site} {env : Environment}
    {post : Value → Shared → Prop} {program : Program Op Op.Answer Value}
    (ensured : (serving site env).ensures post program shared) :
    ∃ value after, shared.evaluate site env program = some (value, after) ∧
      post value after := by
  induction program generalizing shared with
  | done value => exact ⟨value, shared, rfl, ensured⟩
  | call _ _ ih =>
    obtain ⟨answer, after, performed⟩ := shared.perform_isSome site env ensured.1
    obtain ⟨value, last, evaluated, holds⟩ :=
      ih answer (ensured.2 answer after performed)
    exact ⟨value, last, by rw [Shared.evaluate, performed]; exact evaluated, holds⟩

variable {err : GoError} {dir : Key} {site : Site} {env : Environment} {tree : Tree} {faulty : Prop}
variable {Value First : Type} {failed : GoError → Prop}

/-- Watches are added, one by one, and only for directories of the tree. -/
inductive Shared.Observes (site : Site) (env : Environment) (tree : Tree)
    (before : Shared) : Shared → Prop
  | none : Observes site env tree before before
  | next (middle : Shared) (dir : Key) :
      Observes site env tree before middle →
      tree.kind dir = some .directory →
      Observes site env tree before (middle.observe site env dir).2

theorem Shared.Observes.trans {first : Shared} (left : first.Observes site env tree second)
    (right : second.Observes site env tree third) :
    first.Observes site env tree third := by
  induction right with
  | none => exact left
  | next middle dir _ isDirectory ih =>
    exact .next middle dir ih isDirectory

/-- Discovery changes the watches and nothing else. -/
structure Shared.Frame (site : Site) (env : Environment) (tree : Tree)
    (before after : Shared) : Prop where
  store : after.store = before.store
  closed : after.watch.closed = before.watch.closed
  observes : before.Observes site env tree after

theorem Shared.Frame.refl (shared : Shared) : shared.Frame site env tree shared :=
  ⟨rfl, rfl, .none⟩

theorem Shared.Frame.trans {first : Shared} (left : first.Frame site env tree second)
    (right : second.Frame site env tree third) :
    first.Frame site env tree third :=
  ⟨right.store.trans left.store, right.closed.trans left.closed,
    left.observes.trans right.observes⟩

/-- The code returns a value with `ok`, or an error with `failed`.  Without a fault the
watcher is open. -/
def Finds (site : Site) (env : Environment) (tree : Tree) (faulty : Prop)
    (failed : GoError → Prop) (ok : Value → Prop) (code : Code Value) : Prop :=
  ∀ shared : Shared, (¬faulty → shared.watch.closed = false) →
    (serving site env).yields (fun value after => shared.Frame site env tree after ∧ ok value)
      (fun err after => shared.Frame site env tree after ∧ failed err) code shared

theorem Finds.evaluate {ok : Value → Prop} {code : Code Value}
    (found : Finds site env tree faulty failed ok code) (shared : Shared)
    (calm : ¬faulty → shared.watch.closed = false) :
    ∃ result after, shared.evaluate site env code.run = some (result, after) ∧
      shared.Frame site env tree after ∧ (∀ value, result = .ok value → ok value) ∧
        ∀ err, result = .error err → failed err := by
  obtain ⟨result, after, evaluated, holds⟩ := Shared.evaluate_of_ensures (found shared calm)
  refine ⟨result, after, evaluated, ?_⟩
  cases result with
  | ok =>
    refine ⟨holds.1, ?_, nofun⟩
    intro returned same
    cases same
    exact holds.2
  | error =>
    refine ⟨holds.1, nofun, ?_⟩
    intro returned same
    cases same
    exact holds.2

namespace Finds

variable {value : Value} {first : Code First} {rest : First → Code Value} {answer : op.Answer}
  {ok strong : Value → Prop}

theorem pure (holds : ok value) :
    Finds site env tree faulty failed ok (Pure.pure value) := by
  intro shared _
  exact Semantics.yields_pure ⟨.refl shared, holds⟩

theorem throw (holds : failed err) :
    Finds site env tree faulty failed ok (MonadExcept.throw err : Code Value) := by
  intro shared _
  exact Semantics.yields_throw ⟨.refl shared, holds⟩

variable {stronger : GoError → Prop} {code : Code Value}

theorem mono (found : Finds site env tree faulty stronger strong code)
    (implied : ∀ value, strong value → ok value) (impliedFault : ∀ err, stronger err → failed err) :
    Finds site env tree faulty failed ok code := by
  intro shared calm
  refine Semantics.yields_mono ?_ ?_ (found shared calm)
  · rintro value after ⟨frame, holds⟩
    exact ⟨frame, implied value holds⟩
  · rintro err after ⟨frame, holds⟩
    exact ⟨frame, impliedFault err holds⟩

theorem bind {middle : First → Prop} (found : Finds site env tree faulty failed middle first)
    (continued : ∀ value, middle value →
      Finds site env tree faulty failed ok (rest value)) :
    Finds site env tree faulty failed ok (first >>= rest) := by
  intro shared calm
  refine Semantics.yields_bind (Semantics.yields_mono ?_ ?_ (found shared calm))
  · rintro value after ⟨frame, holds⟩
    have calmAfter : ¬faulty → after.watch.closed = false := by
      rw [frame.closed]
      exact calm
    refine Semantics.yields_mono ?_ ?_ (continued value holds after calmAfter)
    · rintro result last ⟨further, final⟩
      exact ⟨frame.trans further, final⟩
    · rintro err last ⟨further, final⟩
      exact ⟨frame.trans further, final⟩
  · rintro err after holds
    exact holds

theorem attempt (found : Finds site env tree faulty stronger ok code) :
    Finds site env tree faulty failed
      (fun result => (∀ value, result = .ok value → ok value) ∧
        ∀ err, result = .error err → stronger err)
      (Library.attempt code) := by
  intro shared calm
  refine Semantics.yields_attempt (Semantics.yields_mono ?_ ?_ (found shared calm))
  · rintro value after ⟨frame, holds⟩
    refine ⟨frame, ?_, nofun⟩
    intro returned same
    cases same
    exact holds
  · rintro err after ⟨frame, holds⟩
    refine ⟨frame, nofun, ?_⟩
    intro returned same
    cases same
    exact holds

theorem ask (converges : op ≠ .diverge)
    (performed : ∀ shared : Shared, shared.perform site env op = some (answer, shared)) :
    Finds site env tree faulty failed (fun returned => returned = answer)
      (Documents.ask op) := by
  intro shared _
  refine Semantics.yields_lift (Semantics.ensures_ask converges ?_)
  intro returned after handled
  have same : (answer, shared) = (returned, after) :=
    Option.some.inj ((performed shared).symm.trans handled)
  obtain ⟨rfl, rfl⟩ := Prod.mk.inj same
  exact ⟨.refl _, rfl⟩

theorem check (failing : err ≠ [] → failed err) :
    Finds site env tree faulty failed (fun _ => err = []) (Documents.check err) := by
  unfold Documents.check
  split
  next clear => exact pure clear
  next reported => exact throw (failing reported)

theorem checkContext (failing : env.ctxErr ≠ [] → failed env.ctxErr) :
    Finds site env tree faulty failed (fun _ => env.ctxErr = [])
      Documents.checkContext := by
  refine bind (ask nofun fun _ => rfl) ?_
  rintro err rfl
  exact check failing

end Finds

/-! ## Watching a directory -/

namespace GoError

theorem join_not_onlyNotExist {left right : GoError} (present : left ≠ [])
    (other : left.isOnlyNotExist = false) : (left.join right).isOnlyNotExist = false := by
  simp only [GoError.isOnlyNotExist, GoError.onlyMatches, GoError.join] at other ⊢
  cases left with
  | nil => exact absurd rfl present
  | cons =>
    rw [List.all_append]
    simp only [List.isEmpty_cons, List.cons_append, Bool.not_false, Bool.true_and] at other ⊢
    rw [other, Bool.false_and]

end GoError

namespace Watch

theorem removalError_not_onlyNotExist (err : GoError) :
    (removalError site err).isOnlyNotExist = false := by
  unfold removalError
  split
  · rfl
  next kept =>
    simp only [Bool.or_eq_true, not_or, Bool.not_eq_true] at kept
    exact kept.1.2

/-- The error of adding a watch for a directory that is there. -/
structure AddsDirectory (env : Environment) (tree : Tree) (watch : Watch)
    (result : (Bool × GoError) × Watch) : Prop where
  closed : result.2.closed = watch.closed
  present : result.1.2.isOnlyNotExist = false
  clear : env.Serves tree → watch.closed = false → result.1.2 = []

theorem install_adds {info : Identity} {watch : Watch} (truthful : env.Truthful tree)
    (isDirectory : tree.kind dir = some .directory)
    (same : env.Serves tree → env.directoryInfoAfter dir = .ok info) :
    AddsDirectory env tree watch (watch.install site env dir info) := by
  unfold install
  split
  next refused =>
    refine ⟨rfl, truthful.backendAdd_present dir isDirectory, ?_⟩
    intro serves
    exact absurd (serves.backendAdd dir) refused
  dsimp only
  cases after : env.directoryInfoAfter dir with
  | error err =>
    have present := truthful.directoryInfoAfter_present dir err isDirectory after
    refine ⟨rfl, ?_, ?_⟩
    · cases err with
      | nil => exact removalError_not_onlyNotExist _
      | cons => exact GoError.join_not_onlyNotExist (by simp) present
    · intro serves
      rw [same serves] at after
      cases after
  | ok =>
    dsimp only
    split
    next changed =>
      refine ⟨rfl, GoError.join_not_onlyNotExist (by simp) rfl, ?_⟩
      intro serves
      rw [same serves] at after
      cases after
      exact absurd rfl changed
    · exact ⟨rfl, rfl, fun _ _ => rfl⟩

theorem addDirectory_adds (truthful : env.Truthful tree)
    (isDirectory : tree.kind dir = some .directory) (watch : Watch) :
    AddsDirectory env tree watch (watch.addDirectory site env dir) := by
  unfold addDirectory
  split
  next closed =>
    refine ⟨rfl, rfl, ?_⟩
    intro _ open_
    rw [closed] at open_
    cases open_
  · cases known : env.directoryInfo dir with
    | error err =>
      refine ⟨rfl, truthful.directoryInfo_present dir err isDirectory known, ?_⟩
      intro serves
      obtain ⟨identity, before, _⟩ := serves.directoryInfo dir isDirectory
      rw [known] at before
      cases before
    | ok info =>
      have same : env.Serves tree →
          env.directoryInfoAfter dir = .ok info := by
        intro serves
        obtain ⟨identity, before, after⟩ := serves.directoryInfo dir isDirectory
        rw [known] at before
        cases before
        exact after
      dsimp only
      cases watch.watched.lookup dir with
      | none => exact install_adds truthful isDirectory same
      | some =>
        dsimp only
        split
        · exact ⟨rfl, rfl, fun _ _ => rfl⟩
        split
        next reported =>
          refine ⟨rfl, removalError_not_onlyNotExist _, ?_⟩
          intro serves
          simp [removeDirectory, serves.backendRemove, removalError] at reported
        have installed : AddsDirectory env tree
            (watch.removeDirectory site env dir).2
            ((watch.removeDirectory site env dir).2.install site env dir info) :=
          install_adds truthful isDirectory same
        exact ⟨installed.closed, installed.present, installed.clear⟩

end Watch

/-- A failure that does not say that something is missing. -/
def Fault (faulty : Prop) (err : GoError) : Prop :=
  faulty ∧ err.isOnlyNotExist = false

namespace Finds

variable {watching : Bool} {name : Name} (truthful : env.Truthful tree)
  (serves : ¬faulty → env.Serves tree)

include serves in
theorem fault_of (present : err.isOnlyNotExist = false)
    (excluded : env.Serves tree → False) : Fault faulty err := by
  refine ⟨?_, present⟩
  by_contra sound
  exact excluded (serves sound)

include truthful serves in
theorem context : Finds site env tree faulty (Fault faulty)
    (fun _ => env.ctxErr = []) Documents.checkContext := by
  refine checkContext ?_
  intro reported
  exact fault_of serves truthful.context fun served => reported served.context

include truthful serves in
theorem observe (isDirectory : tree.kind dir = some .directory) :
    Finds site env tree faulty failed (fun err => err ≠ [] → Fault faulty err)
      (Documents.observe watching dir) := by
  unfold Documents.observe
  split
  · intro shared calm
    refine Semantics.yields_lift (Semantics.ensures_ask nofun ?_)
    intro err after handled
    have adds : Watch.AddsDirectory env tree shared.watch
        (shared.watch.addDirectory site env dir) :=
      Watch.addDirectory_adds truthful isDirectory shared.watch
    cases handled
    refine ⟨⟨rfl, adds.closed, .next shared dir .none isDirectory⟩, ?_⟩
    intro reported
    refine ⟨?_, adds.present⟩
    by_contra sound
    exact reported (adds.clear (serves sound) (calm sound))
  · exact pure fun reported => absurd rfl reported

theorem workspacePathMissing (truthful : env.Truthful tree)
    (isDirectory : tree.kind dir = some .directory)
    (other : dir ++ [name] ∈ tree.nodes → err.isOnlyNotExist = false) :
    Finds site env tree faulty failed
      (fun missing => (missing = true → dir ++ [name] ∉ tree.nodes) ∧
        (err.isOnlyNotExist = true → missing = true))
      (Documents.workspacePathMissing (dir ++ [name]) err) := by
  unfold Documents.workspacePathMissing
  split
  next missing =>
    refine pure ⟨fun _ present => ?_, fun _ => rfl⟩
    rw [other present] at missing
    cases missing
  rename_i exists_
  split
  · exact pure ⟨(by simp), fun missing => absurd missing exists_⟩
  have parent : keyDir (dir ++ [name]) = dir := by simp [keyDir]
  have base : keyBase (dir ++ [name]) = some name := by simp [keyBase]
  rw [parent, base]
  refine bind (ask (by simp) fun _ => rfl) ?_
  rintro answer rfl
  cases read : env.readDir dir with
  | error readErr =>
    refine pure ⟨?_, fun missing => absurd missing exists_⟩
    rw [truthful.readDir_present dir readErr isDirectory read]
    exact (by simp)
  | ok listing =>
    have lists := truthful.readDir_lists dir listing isDirectory read
    refine pure ⟨?_, fun missing => absurd missing exists_⟩
    intro unlisted present
    rw [(lists.any_name name).mpr present] at unlisted
    cases unlisted

end Finds

end Ferretd.Documents

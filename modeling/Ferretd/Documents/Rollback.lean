import Ferretd.Documents.StaticReconcile
import Ferretd.Documents.StoreLaws
import Ferretd.Documents.WatchLaws
import Mathlib.Data.Finset.Lattice.Fold

/-!
# The watches of a reconciliation that does not commit

`registration.finish` removes what a reconciliation has added, which restores the watched
directories unless a watch of another directory was replaced.
-/

namespace Ferretd.Documents

open Library Semantics Shared Documents.Tree List

variable {dir : Key} {identity : Identity} {site : Site} {env : Environment} {tree : Tree}

/-- A directory of the tree is told apart by its identity. -/
def Environment.Identifies (env : Environment) (tree : Tree) : Prop :=
  ∀ dir identity, tree.kind dir = some .directory →
    env.directoryInfo dir = .ok identity →
      tree.info dir = some ⟨.directory, identity⟩

/-- Every watched path that names a directory names the one that was watched. -/
def Watch.Fresh (tree : Tree) (watch : Watch) : Prop :=
  ∀ dir previous identity, watch.watched.lookup dir = some previous →
    tree.info dir = some ⟨.directory, identity⟩ → previous = identity

/-- The same where a reconciliation may change watches at all. -/
def Shared.Fresh (tree : Tree) (shared : Shared) : Prop :=
  shared.store.closing = false → shared.watch.closed = false → shared.watch.Fresh tree

def Watch.SamePaths (before after : Watch) : Prop :=
  ∀ dir, dir ∈ after.watched ↔ dir ∈ before.watched

/-- A reconciliation that returned an error before it committed, or one of an explicit
selection that was not found and had not been admitted. -/
def Call.NotCommitted (shared after : Shared) (result : Except GoError (Option Document)) :
    Call → Prop
  | .reconcileDocument relativePath explicit =>
    (∃ err, result = .error err ∧ after.registration.committed = false) ∨
      explicit = true ∧ result = .ok none ∧
        ∀ key, normalizeDocumentPath relativePath = some key → key ∉ shared.store.explicitPaths
  | .refreshDocument _ | .reconcileTree _ =>
    ∃ err, result = .error err ∧ after.registration.committed = false
  | .reconcileWatchEvent _ _ => False

/-- Every reconciliation that does not commit leaves the watched paths as they were,
whatever fails on its way. -/
def RestoresWatches (site : Site) (tree : Tree) (shared : Shared) : Prop :=
  ∀ env : Environment, env.Truthful tree → env.Identifies tree →
    ∀ (call : Call) (fuel : Nat) (result : Except GoError (Option Document)) (after : Shared),
      tree.Within fuel →
      evaluate site env { shared with registration := .new }
        (call.code site fuel).run = some (result, after) →
      call.NotCommitted shared after result → shared.watch.SamePaths after.watch

/-! ## Watches that may be taken back -/

section Restores

variable {Value : Type} {before : Watch} {shared after : Shared}

/-- The watches of a reconciliation that may still be taken back. -/
structure Shared.Provisional (tree : Tree) (before : Watch) (shared : Shared) : Prop where
  fresh : shared.watch.closed = false → shared.watch.Fresh tree
  watched :
    ∀ dir, dir ∈ shared.watch.watched ↔
      dir ∈ before.watched ∨ dir ∈ shared.registration.added
  added : ∀ dir ∈ shared.registration.added, dir ∉ before.watched

theorem Shared.Provisional.observe (identifies : env.Identifies tree)
    (provisional : shared.Provisional tree before) (isDirectory : tree.kind dir = some .directory) :
    (shared.observe site env dir).2.Provisional tree before := by
  have effect := Watch.AddEffect.of_addDirectory site env shared.watch dir
  unfold Shared.observe
  dsimp only
  generalize shared.watch.addDirectory site env dir = result at effect
  obtain ⟨⟨added, err⟩, watch⟩ := result
  dsimp only at effect ⊢
  -- a replaced watch would have another identity than its directory has now
  have unwatched : ∀ identity, shared.watch.closed = false →
      env.directoryInfo dir = .ok identity →
      shared.watch.watched.lookup dir ≠ some identity →
        shared.watch.watched.lookup dir = none := by
    intro identity open_ current other
    cases known : shared.watch.watched.lookup dir with
    | none => rfl
    | some previous =>
      rw [provisional.fresh open_ dir previous identity known
        (identifies dir identity isDirectory current)] at known
      exact absurd known other
  cases effect with
  | kept => exact ⟨provisional.fresh, provisional.watched, provisional.added⟩
  | @dropped identity _ open_ current other lookups =>
    have missing := unwatched identity open_ current other
    have same : ∀ key, watch.watched.lookup key = shared.watch.watched.lookup key := by
      intro key
      rw [lookups]
      split
      next isSame => rw [isSame, missing]
      · rfl
    refine ⟨?_, ?_, provisional.added⟩
    · intro _ key previous found known present
      rw [same] at known
      exact provisional.fresh open_ key previous found known present
    · intro key
      show key ∈ watch.watched ↔ key ∈ before.watched ∨ key ∈ shared.registration.added
      rw [← provisional.watched, ← AList.lookup_isSome, same, AList.lookup_isSome]
  | @installed identity _ open_ current other lookups =>
    have missing := unwatched identity open_ current other
    have isNew : dir ∉ shared.watch.watched := AList.lookup_eq_none.mp missing
    refine ⟨?_, ?_, ?_⟩
    · intro _ key previous found known present
      rw [lookups] at known
      split at known
      next isSame =>
        rw [isSame, identifies dir identity isDirectory current] at present
        cases known
        cases present
        rfl
      · exact provisional.fresh open_ key previous found known present
    · intro key
      rw [← AList.lookup_isSome, lookups, if_pos rfl, mem_append, mem_singleton,
        ← or_assoc, ← provisional.watched]
      split
      next isSame => simp [isSame]
      next different => simp [different, AList.lookup_isSome]
    · intro key present
      rw [if_pos rfl] at present
      rcases mem_append.mp present with earlier | last
      · exact provisional.added key earlier
      · rw [mem_singleton.mp last]
        exact fun was => isNew ((provisional.watched dir).mpr (.inl was))

structure Shared.Pending (tree : Tree) (before : Watch) (store : Store) (shared : Shared) :
    Prop where
  provisional : shared.Provisional tree before
  uncommitted : shared.registration.committed = false
  store : shared.store = store

variable {store : Store}

theorem Shared.Pending.observes (identifies : env.Identifies tree)
    (pending : shared.Pending tree before store) (observes : shared.Observes site env tree after) :
    after.Pending tree before store := by
  induction observes with
  | none => exact pending
  | next _ _ _ isDirectory ih =>
    exact ⟨ih.provisional.observe identifies isDirectory, ih.uncommitted, ih.store⟩

/-- What has not been committed can be taken back. -/
def Shared.Revocable (tree : Tree) (before : Watch) (shared : Shared) : Prop :=
  shared.registration.committed = false → shared.Provisional tree before

/-- What has not been committed has been taken back. -/
def Shared.Revoked (before : Watch) (shared : Shared) : Prop :=
  shared.registration.committed = false → before.SamePaths shared.watch

theorem Shared.Pending.revocable (pending : shared.Pending tree before store) :
    shared.Revocable tree before :=
  fun _ => pending.provisional

variable {ok : Value → Shared → Prop} {failed : GoError → Shared → Prop}

theorem yields_pending {First : Type} {found : First → Prop} {first : Code First}
    {rest : First → Code Value} (identifies : env.Identifies tree)
    (finds : Finds site env tree True (fun _ => True) found first)
    (pending : shared.Pending tree before store)
    (refused : ∀ err after, after.Pending tree before store → failed err after)
    (continued : ∀ value after, after.Pending tree before store →
      (serving site env).yields ok failed (rest value) after) :
    (serving site env).yields ok failed (first >>= rest) shared := by
  refine yields_bind (yields_mono ?_ ?_ (finds shared fun impossible => absurd trivial impossible))
  · rintro value after ⟨frame, _⟩
    exact continued value after (pending.observes identifies frame.observes)
  · rintro err after ⟨frame, _⟩
    exact refused err after (pending.observes identifies frame.observes)

theorem revoked_of_finish {finishErr : GoError} (revocable : shared.Revocable tree before)
    (performed : shared.perform site env .finishRegistration = some (finishErr, after)) :
    after.Revoked before ∧ after.registration = shared.registration := by
  simp only [perform, finishRegistration] at performed
  split at performed
  next removes =>
    cases performed
    refine ⟨?_, rfl⟩
    intro uncommitted dir
    have provisional := revocable uncommitted
    rw [Watch.mem_removeDirectories, provisional.watched]
    constructor
    · rintro ⟨was | wasAdded, kept⟩
      · exact was
      · exact absurd wasAdded kept
    · intro was
      exact ⟨.inl was, fun wasAdded => provisional.added dir wasAdded was⟩
  next nothing =>
    cases performed
    refine ⟨?_, rfl⟩
    intro uncommitted dir
    have none : shared.registration.added = [] := by
      by_contra some
      exact nothing ⟨uncommitted, some⟩
    rw [(revocable uncommitted).watched, none]
    simp

theorem yields_revoked {code : Code Value} (tree : Tree) (settled : Value → Registration → Prop)
    (yielded : (serving site env).yields
      (fun value after => after.Revocable tree before ∧ settled value after.registration)
      (fun _ after => after.Revocable tree before) code shared) :
    (serving site env).yields
      (fun value after => after.Revoked before ∧ settled value after.registration)
      (fun _ after => after.Revoked before) (finishing code) shared := by
  unfold finishing
  refine yields_bind (yields_attempt ?_)
  refine yields_mono ?_ ?_ yielded
  · rintro value state ⟨revocable, isSettled⟩
    refine yields_bind (yields_lift (ensures_ask nofun ?_))
    intro finishErr after performed
    obtain ⟨revoked, registration⟩ := revoked_of_finish revocable performed
    rw [← registration] at isSettled
    exact yields_check revoked (yields_pure ⟨revoked, isSettled⟩)
  · intro err state revocable
    refine yields_bind (yields_lift (ensures_ask nofun ?_))
    intro finishErr after performed
    exact yields_throw (revoked_of_finish revocable performed).1

/-! ## The calls -/

theorem Shared.Fresh.pending (fresh : shared.Fresh tree)
    (accepting : shared.store.closing = false) :
    Shared.Pending tree shared.watch shared.store { shared with registration := .new } :=
  ⟨⟨fresh accepting, by simp [Registration.new], nofun⟩, rfl, rfl⟩

theorem revoked_begun (shared : Shared) :
    Shared.Revoked shared.watch { shared with registration := .new } :=
  fun _ _ => Iff.rfl

theorem yields_begin {rest : Code Value} (refused : ∀ err, failed err shared)
    (continued : shared.store.closing = false →
      (serving site env).yields ok failed rest shared) :
    (serving site env).yields ok failed (do
      check (← ask .beginMutation)
      rest) shared := by
  refine yields_bind (yields_lift (ensures_ask nofun ?_))
  intro err after performed
  cases performed
  refine yields_bind ?_
  unfold check
  split
  next clear =>
    refine yields_pure (continued ?_)
    simp only [beginMutation] at clear
    split at clear
    next cancelled => exact absurd clear cancelled
    · split at clear
      · cases clear
      next accepting => exact Bool.eq_false_iff.mpr accepting
  · exact yields_throw (refused _)

variable (truthful : env.Truthful tree) (identifies : env.Identifies tree)
variable (fresh : shared.Fresh tree)

include truthful identifies fresh in
theorem yieldsRevoked_reconcileDocument (relativePath : Text) (explicit : Bool) :
    (serving site env).yields (fun doc after => after.Revoked shared.watch ∧
        (doc = none → explicit = true →
          (∀ key, normalizeDocumentPath relativePath = some key →
            key ∉ shared.store.explicitPaths) →
          after.registration.committed = false))
      (fun _ after => after.Revoked shared.watch)
      (reconcileDocument site relativePath explicit) { shared with registration := .new } := by
  unfold reconcileDocument
  refine yields_begin (fun _ => revoked_begun shared) fun accepting => ?_
  cases normalized : normalizeDocumentPath relativePath with
  | none => exact yields_pure ⟨revoked_begun shared, fun _ _ _ => rfl⟩
  | some key =>
    refine yields_bind (yields_lift (ensures_ask nofun ?_))
    rintro ⟨watching, admitted⟩ looked performed
    have isAdmitted : admitted = decide (key ∈ shared.store.explicitPaths) := by
      cases performed
      rfl
    have registered : looked.Pending tree shared.watch shared.store := by
      cases performed
      exact fresh.pending accepting
    have settles : ∀ (doc : Option Document) (registration : Registration),
        (doc = none → explicit = true → admitted = false → registration.committed = false) →
        doc = none → explicit = true →
          (∀ other, some key = some other → other ∉ shared.store.explicitPaths) →
            registration.committed = false := by
      intro doc registration settled missing isExplicit unknown
      refine settled missing isExplicit ?_
      rw [isAdmitted]
      exact decide_eq_false (unknown key rfl)
    refine yields_mono ?_ (fun _ _ revoked => revoked)
      (yields_revoked tree (fun doc registration =>
        doc = none → explicit = true → admitted = false → registration.committed = false) ?_)
    · rintro doc after ⟨revoked, settled⟩
      exact ⟨revoked, settles doc after.registration settled⟩
    · refine yields_pending identifies ((finds_discoverWorkspaceDocument truthful
        (fun impossible => absurd trivial impossible) key).mono (fun _ found => found)
          fun _ fault => fault) registered (fun _ _ pending => pending.revocable) ?_
      intro discovered state held
      have context : Finds site env tree True (fun _ => True)
          (fun _ => env.ctxErr = []) checkContext :=
        Finds.checkContext fun _ => trivial
      refine yields_pending identifies context held (fun _ _ pending => pending.revocable) ?_
      intro _ checked pending
      refine yields_bind (yields_lift (ensures_ask nofun ?_))
      intro answer after performed
      change some (checked.commitDocument env key explicit admitted
        discovered.document) = some (answer, after) at performed
      unfold commitDocument at performed
      split at performed
      · cases performed
        exact yields_throw pending.revocable
      split at performed
      · cases performed
        exact yields_throw pending.revocable
      cases performed
      refine yields_pure ⟨fun _ => ⟨pending.provisional.fresh,
        pending.provisional.watched, pending.provisional.added⟩, ?_⟩
      intro missing isExplicit unknown
      have notFound : discovered.document.isSome = false := by
        rw [← Store.commitDocument_returned checked.store key explicit admitted, missing]
        rfl
      show (checked.store.commitDocument key explicit admitted discovered.document).2.1 = false
      rw [Store.commitDocument_committed, notFound, isExplicit, unknown]
      rfl

include truthful identifies fresh in
theorem yieldsRevoked_reconcileTree {fuel : Nat} (within : tree.Within fuel) (relativePath : Text) :
    (serving site env).yields (fun _ _ => True) (fun _ after => after.Revoked shared.watch)
      (reconcileTree site fuel relativePath) { shared with registration := .new } := by
  unfold reconcileTree
  refine yields_begin (fun _ => revoked_begun shared) fun accepting => ?_
  cases normalized : normalizeWorkspacePath relativePath with
  | none => exact yields_pure trivial
  | some key =>
    refine yields_bind (yields_lift (ensures_ask (by rintro ⟨⟩) ?_))
    rintro ⟨watching, explicitPaths⟩ looked performed
    have registered : looked.Pending tree shared.watch shared.store := by
      cases performed
      exact fresh.pending accepting
    refine yields_mono (fun _ _ _ => trivial) (fun _ _ revoked => revoked)
      (yields_revoked tree (fun _ _ => True) ?_)
    refine yields_pending identifies (finds_reconcileContent truthful within) registered
      (fun _ _ pending => pending.revocable) ?_
    intro content state pending
    refine yields_bind (yields_lift (ensures_ask (by rintro ⟨⟩) ?_))
    intro commitErr after performed
    have revocable : after.Revocable tree shared.watch ∧
        (commitErr = [] → after.registration.committed = true) := by
      change some (state.commitTree env key content) = some (commitErr, after)
        at performed
      unfold commitTree at performed
      split at performed
      next cancelled =>
        cases performed
        exact ⟨pending.revocable, fun clear => absurd clear cancelled⟩
      split at performed
      · cases performed
        exact ⟨pending.revocable, (by rintro ⟨⟩)⟩
      · cases performed
        exact ⟨(by rintro ⟨⟩), fun _ => rfl⟩
    refine yields_bind ?_
    by_cases clear : commitErr = []
    · have committed := revocable.2 clear
      rw [check, if_pos clear]
      refine yields_pure ?_
      split
      · refine yields_bind (yields_lift (ensures_ask (by rintro ⟨⟩) ?_))
        intro replaceErr last performed
        have stillCommitted : last.Revocable tree shared.watch := by
          cases performed
          intro uncommitted
          rw [show after.registration.committed = false from uncommitted] at committed
          cases committed
        split
        · exact yields_throw stillCommitted
        · exact yields_pure ⟨stillCommitted, trivial⟩
      · exact yields_pure ⟨revocable.1, trivial⟩
    · rw [check, if_neg clear]
      exact yields_throw revocable.1

include fresh in
theorem Shared.Fresh.restores : RestoresWatches site tree shared := by
  intro env truthful identifies call fuel result after within evaluated notCommitted
  cases call with
  | reconcileDocument relativePath explicit =>
    obtain ⟨_, _, same, holds⟩ := evaluate_of_ensures
      (yieldsRevoked_reconcileDocument truthful identifies fresh relativePath explicit)
    cases same.symm.trans evaluated
    rcases notCommitted with ⟨err, rfl, uncommitted⟩ | ⟨isExplicit, rfl, unknown⟩
    · exact holds uncommitted
    · exact holds.1 (holds.2 rfl isExplicit unknown)
  | refreshDocument relativePath =>
    obtain ⟨err, rfl, uncommitted⟩ := notCommitted
    have yielded : (serving site env).yields (fun _ _ => True)
        (fun _ after => after.Revoked shared.watch) (refreshDocument site relativePath)
        { shared with registration := .new } := by
      refine yields_bind (yields_mono ?_ (fun _ _ revoked => revoked)
        (yieldsRevoked_reconcileDocument truthful identifies fresh relativePath true))
      rintro doc state ⟨revoked, _⟩
      cases doc with
      | none => exact yields_throw revoked
      | some => exact yields_pure trivial
    obtain ⟨_, _, same, holds⟩ := evaluate_of_ensures yielded
    cases same.symm.trans evaluated
    exact holds uncommitted
  | reconcileTree relativePath =>
    obtain ⟨err, rfl, uncommitted⟩ := notCommitted
    obtain ⟨_, _, same, holds⟩ := evaluate_of_ensures
      (yieldsRevoked_reconcileTree truthful identifies fresh within relativePath)
    cases same.symm.trans evaluated
    exact holds uncommitted
  | reconcileWatchEvent => exact absurd notCommitted id

end Restores

/-! ## A watch of another directory -/

/-- The answers of a tree when one file cannot be inspected. -/
def Tree.refusing (tree : Tree) (key : Key) : Environment :=
  { tree.environment [] fun _ => [] with
    lstat := fun other =>
      if other = key then
        .error [.message "input/output error"]
      else
        (tree.environment [] fun _ => []).lstat other }

theorem Tree.refusing_truthful (tree : Tree) (key : Key) : (tree.refusing key).Truthful tree := by
  have plain : (tree.environment [] fun _ => []).Truthful tree := environment_truthful rfl
  refine ⟨plain.context, plain.readDir_lists, plain.readDir_present, ?_, ?_,
    plain.open_present, plain.handle_shows, plain.absolute_shows, plain.absolute_present,
    plain.directoryInfo_present, plain.directoryInfoAfter_present, plain.backendAdd_present⟩
  · intro dir name info isDirectory inspected
    simp only [refusing] at inspected
    split at inspected
    · cases inspected
    · exact plain.lstat_shows dir name info isDirectory inspected
  · intro other err present inspected
    simp only [refusing] at inspected
    split at inspected
    · cases inspected
      rfl
    · exact plain.lstat_present other err present inspected

theorem Tree.refusing_identifies (tree : Tree) (key : Key) :
    (tree.refusing key).Identifies tree := by
  intro dir identity _ current
  simp only [refusing, Tree.environment] at current
  split at current
  next found located =>
    cases current
    exact located
  · cases current
  · cases current

theorem Watch.addDirectory_served {watch : Watch} (open_ : watch.closed = false)
    (current : env.directoryInfo dir = .ok identity)
    (after : env.directoryInfoAfter dir = .ok identity) (adds : env.backendAdd dir = [])
    (removes : env.backendRemove dir = []) :
    (watch.addDirectory site env dir).1.2 = [] ∧
      (watch.addDirectory site env dir).2.closed = false ∧
      (watch.watched.lookup dir ≠ some identity →
        (watch.addDirectory site env dir).1.1 = true) := by
  have installed : ∀ bare : Watch, bare.closed = false →
      (bare.install site env dir identity).1 = (true, []) ∧
        (bare.install site env dir identity).2.closed = false := by
    intro bare isOpen
    simp [install, adds, after, isOpen]
  have removed : (watch.removeDirectory site env dir).1 = [] := by
    simp [removeDirectory, removes, removalError]
  unfold addDirectory
  rw [if_neg (by simp [open_]), current]
  dsimp only
  cases known : watch.watched.lookup dir with
  | none =>
    obtain ⟨result, stillOpen⟩ := installed watch open_
    exact ⟨by rw [result], stillOpen, fun _ => by rw [result]⟩
  | some =>
    dsimp only
    split
    next same =>
      rw [same]
      exact ⟨rfl, open_, fun other => absurd rfl other⟩
    rw [if_neg (not_not.mpr removed)]
    obtain ⟨result, stillOpen⟩ :=
      installed (watch.removeDirectory site env dir).2 open_
    exact ⟨by rw [result], stillOpen, fun _ => by rw [result]⟩

section Loses

variable {failed : GoError → Shared → Prop} {shared : Shared} {lost : Key}
  {previous identity : Identity}

/-- The directory is not watched, or will not be after a rollback. -/
def Shared.Lost (lost : Key) (shared : Shared) : Prop :=
  lost ∈ shared.registration.added ∨ lost ∉ shared.watch.watched

/-- A reconciliation that has lost the watch of a directory, or still has to come to it. -/
structure Shared.Losing (lost : Key) (previous : Identity) (shared : Shared) : Prop where
  open_ : shared.watch.closed = false
  uncommitted : shared.registration.committed = false
  stale : shared.Lost lost ∨ shared.watch.watched.lookup lost = some previous

theorem Shared.Lost.observe (isLost : shared.Lost lost) (dir : Key) :
    (shared.observe site env dir).2.Lost lost := by
  have effect := Watch.AddEffect.of_addDirectory site env shared.watch dir
  unfold Shared.observe
  dsimp only
  generalize shared.watch.addDirectory site env dir = result at effect
  obtain ⟨⟨added, err⟩, watch⟩ := result
  rcases isLost with wasAdded | unwatched
  · refine .inl ?_
    dsimp only
    split
    · exact mem_append_left _ wasAdded
    · exact wasAdded
  · by_cases present : lost ∈ watch.watched
    · rcases effect.mem present with before | ⟨isAdded, rfl⟩
      · exact absurd before unwatched
      · dsimp only at isAdded
        refine .inl ?_
        simp [isAdded]
    · exact .inr present

theorem Shared.Losing.observe (site : Site) (key : Key) (losing : shared.Losing lost previous)
    (located : tree.info lost = some ⟨.directory, identity⟩) (differs : previous ≠ identity)
    {dir : Key} (isDirectory : tree.kind dir = some .directory) :
    ∃ after, shared.perform site (tree.refusing key) (.observe dir) = some ([], after) ∧
      after.Losing lost previous ∧ (dir = lost → after.Lost lost) := by
  obtain ⟨⟨kind, present⟩, known, rfl⟩ := kind_some isDirectory
  have current : (tree.refusing key).directoryInfo dir = .ok present := by
    simp [refusing, Tree.environment, known]
  have served : (shared.watch.addDirectory site (tree.refusing key) dir).1.2 = [] ∧
      (shared.watch.addDirectory site (tree.refusing key) dir).2.closed = false ∧
      (shared.watch.watched.lookup dir ≠ some present →
        (shared.watch.addDirectory site (tree.refusing key) dir).1.1 = true) :=
    Watch.addDirectory_served losing.open_ current current rfl rfl
  obtain ⟨clear, stillOpen, isNew⟩ := served
  have loses : dir = lost →
      (shared.observe site (tree.refusing key) dir).2.Lost lost := by
    rintro rfl
    rcases losing.stale with isLost | stale
    · exact isLost.observe dir
    rw [known] at located
    cases located
    have replaced := isNew (by
      rw [stale]
      exact fun same => differs (Option.some.inj same))
    refine .inl ?_
    simp [Shared.observe, replaced]
  refine ⟨_, congrArg some (Prod.ext clear rfl), ⟨stillOpen, losing.uncommitted, ?_⟩, loses⟩
  rcases losing.stale with isLost | stale
  · exact .inl (isLost.observe dir)
  by_cases same : dir = lost
  · exact .inl (loses same)
  refine .inr ?_
  have effect :=
    Watch.AddEffect.of_addDirectory site (tree.refusing key) shared.watch dir
  show (shared.watch.addDirectory site (tree.refusing key) dir).2.watched.lookup lost =
    some previous
  generalize shared.watch.addDirectory site (tree.refusing key) dir = result at effect
  obtain ⟨⟨added, err⟩, watch⟩ := result
  cases effect with
  | kept => exact stale
  | dropped _ _ _ lookups | installed _ _ _ lookups =>
    rw [lookups, if_neg fun equal => same equal.symm]
    exact stale

variable {Value : Type}

theorem yields_answered {ok : Value → Shared → Prop} {op : Op} {answer : op.Answer} {after : Shared}
    {rest : op.Answer → Code Value} (converges : op ≠ .diverge)
    (performed : shared.perform site env op = some (answer, after))
    (continued : (serving site env).yields ok failed (rest answer) after) :
    (serving site env).yields ok failed (ask op >>= rest) shared := by
  refine yields_bind (yields_lift (ensures_ask converges ?_))
  intro returned last handled
  obtain ⟨rfl, rfl⟩ := Prod.mk.inj (Option.some.inj (performed.symm.trans handled))
  exact continued

theorem yields_clear {rest : Code Value} {ok : Value → Shared → Prop} {err : GoError}
    (clear : err = []) (continued : (serving site env).yields ok failed rest shared) :
    (serving site env).yields ok failed (check err >>= fun _ => rest) shared := by
  refine yields_bind ?_
  rw [check, if_pos clear]
  exact yields_pure continued

theorem yields_live {rest : Code Value} {ok : Value → Shared → Prop} (live : env.ctxErr = [])
    (continued : (serving site env).yields ok failed rest shared) :
    (serving site env).yields ok failed (checkContext >>= fun _ => rest) shared := by
  refine yields_bind (yields_answered nofun rfl ?_)
  rw [check, if_pos live]
  exact yields_pure continued

section

variable (located : tree.info lost = some ⟨.directory, identity⟩) (differs : previous ≠ identity)
include located differs

theorem yields_loses {components : List Name} {current : Key}
    {directories : List Key} (whole : current ++ components = lost)
    (losing : shared.Losing lost previous) (reached : components = [] → shared.Lost lost) :
    (serving site (tree.refusing (lost ++ [plainName]))).yields
      (fun result after => result.2 = true ∧ after.registration.committed = false ∧
        after.Lost lost)
      (fun _ _ => False)
      (validateComponents true true current directories components) shared := by
  induction components generalizing current directories shared with
  | nil => exact yields_pure ⟨rfl, losing.uncommitted, reached rfl⟩
  | cons component rest ih =>
    have below : current ++ [component] <+: lost := ⟨rest, by simp [← whole]⟩
    have isDirectory : tree.kind (current ++ [component]) = some .directory := by
      have isKind : tree.kind lost = some .directory := by simp [Tree.kind, located]
      by_cases same : current ++ [component] = lost
      · rw [same]
        exact isKind
      · exact kind_of_above below same isKind
    have other : current ++ [component] ≠ lost ++ [plainName] := by
      intro same
      have shorter := below.length_le
      rw [same, length_append, length_singleton] at shorter
      omega
    obtain ⟨⟨kind, present⟩, known, rfl⟩ := kind_some isDirectory
    have inspected : (tree.refusing (lost ++ [plainName])).lstat (current ++ [component]) =
        .ok ⟨.directory, present⟩ := by
      simp [refusing, Tree.environment, other, known]
    obtain ⟨after, observed, stillLosing, loses⟩ :=
      losing.observe site (lost ++ [plainName]) located differs isDirectory
    unfold validateComponents
    dsimp only
    refine yields_live rfl ?_
    rw [if_neg (by simp)]
    refine yields_answered (by simp) (congrArg (fun answer => some (answer, shared)) inspected) ?_
    dsimp only
    rw [if_neg (by simp), observe, if_pos rfl]
    refine yields_answered (by simp) observed ?_
    rw [if_neg (by simp), if_pos rfl]
    refine ih (by simp [← whole]) stillLosing ?_
    rintro rfl
    exact loses (by simpa using whole)

theorem yields_ancestors_loses (losing : shared.Losing lost previous) :
    (serving site (tree.refusing (lost ++ [plainName]))).yields
      (fun result after => result.2 = true ∧ after.registration.committed = false ∧
        after.Lost lost)
      (fun _ _ => False)
      (validateDocumentAncestors true true (lost ++ [plainName])) shared := by
  obtain ⟨after, observed, stillLosing, loses⟩ :=
    losing.observe site (lost ++ [plainName]) located differs kind_root
  unfold validateDocumentAncestors
  rw [keyDir, dropLast_concat, observe, if_pos rfl]
  refine yields_answered nofun observed (yields_clear rfl ?_)
  exact yields_loses located differs (nil_append lost) stillLosing
    fun none => loses none.symm

theorem yields_discover_loses (losing : shared.Losing lost previous) :
    (serving site (tree.refusing (lost ++ [plainName]))).yields (fun _ _ => False)
      (fun _ after => after.registration.committed = false ∧ after.Lost lost)
      (discoverWorkspaceDocument site true true (lost ++ [plainName])) shared := by
  have refused : (tree.refusing (lost ++ [plainName])).lstat (lost ++ [plainName]) =
      .error [.message "input/output error"] := by
    simp [refusing]
  have inspects : (serving site (tree.refusing (lost ++ [plainName]))).yields
      (fun _ _ => False)
      (fun _ after => after.registration.committed = false ∧ after.Lost lost)
      (discoverWorkspaceDocumentRoot site true true (lost ++ [plainName])) shared := by
    unfold discoverWorkspaceDocumentRoot
    refine yields_live rfl ?_
    rw [if_neg (by rw [isSourceKey_concat]; decide)]
    refine yields_bind (yields_mono ?_ (fun _ _ => False.elim)
      (yields_ancestors_loses located differs losing))
    rintro ⟨directories, eligible⟩ state ⟨isEligible, uncommitted, isLost⟩
    dsimp only at isEligible ⊢
    rw [isEligible, if_neg (by simp)]
    refine yields_answered nofun (congrArg (fun answer => some (answer, state)) refused) ?_
    exact yields_throw ⟨uncommitted, isLost⟩
  unfold discoverWorkspaceDocument
  refine yields_answered nofun rfl (yields_clear rfl ?_)
  unfold closeAfter
  refine yields_bind (yields_attempt (yields_mono (fun _ _ => False.elim) ?_ inspects))
  intro err state isLost
  exact yields_answered nofun rfl (yields_throw isLost)

theorem yields_reconcileDocument_loses
    (accepting : shared.store.closing = false) (watching : shared.store.watching = true)
    (open_ : shared.watch.closed = false)
    (stale : shared.watch.watched.lookup lost = some previous) :
    (serving site (tree.refusing (lost ++ [plainName]))).yields (fun _ _ => False)
      (fun _ after => after.registration.committed = false ∧ lost ∉ after.watch.watched)
      (reconcileDocument site (pathText (lost ++ [plainName])) true)
      { shared with registration := .new } := by
  have begins : beginMutation (tree.refusing (lost ++ [plainName]))
      { shared with registration := .new } = [] := by
    simp [beginMutation, accepting, refusing, Tree.environment]
  have losing : Shared.Losing lost previous { shared with registration := .new } :=
    ⟨open_, rfl, .inr stale⟩
  unfold reconcileDocument
  refine yields_answered (by rintro ⟨⟩) rfl (yields_clear begins ?_)
  rw [normalizeDocumentPath_pathText (by simp)]
  refine yields_answered (by rintro ⟨⟩) rfl ?_
  dsimp only
  rw [watching, Bool.true_or]
  unfold finishing
  refine yields_bind (yields_attempt (yields_bind
    (yields_mono (fun _ _ => False.elim) ?_ (yields_discover_loses located differs losing))))
  rintro err state ⟨uncommitted, isLost⟩
  refine yields_bind (yields_lift (ensures_ask (by rintro ⟨⟩) ?_))
  intro finishErr after performed
  refine yields_throw ?_
  change some (state.finishRegistration site _) = some (finishErr, after) at performed
  unfold finishRegistration at performed
  split at performed
  · cases performed
    refine ⟨uncommitted, ?_⟩
    rw [Watch.mem_removeDirectories]
    rintro ⟨watched, kept⟩
    rcases isLost with wasAdded | unwatched
    · exact kept wasAdded
    · exact unwatched watched
  next nothing =>
    cases performed
    refine ⟨uncommitted, ?_⟩
    rcases isLost with wasAdded | unwatched
    · exact absurd ⟨uncommitted, ne_nil_of_mem wasAdded⟩ nothing
    · exact unwatched

end

end Loses

theorem Tree.exists_within (tree : Tree) : ∃ bound, tree.Within bound := by
  refine ⟨tree.nodes.keys.toFinset.sup List.length + 1, ?_⟩
  intro key present
  exact Nat.lt_succ_of_le (Finset.le_sup (mem_toFinset.mpr present))

/-- A reconciliation that does not commit restores the watched paths, exactly if no
watched path names another directory than it did when its watch was added. -/
theorem watches_restored_iff {shared : Shared} (watching : shared.store.watching = true) :
    RestoresWatches site tree shared ↔ shared.Fresh tree := by
  constructor
  · intro restores accepting open_ dir previous identity stale located
    by_contra differs
    have loses : (serving site (tree.refusing (dir ++ [plainName]))).yields
        (fun _ _ => False)
        (fun _ after => after.registration.committed = false ∧ dir ∉ after.watch.watched)
        (reconcileDocument site (pathText (dir ++ [plainName])) true)
        { shared with registration := .new } :=
      yields_reconcileDocument_loses located differs accepting watching open_ stale
    obtain ⟨result, after, evaluated, ended⟩ := Shared.evaluate_of_ensures loses
    obtain ⟨bound, within⟩ := tree.exists_within
    cases result with
    | ok => exact ended
    | error err =>
      obtain ⟨uncommitted, unwatched⟩ := ended
      have same := restores _ (Tree.refusing_truthful tree (dir ++ [plainName]))
        (Tree.refusing_identifies tree _)
        (.reconcileDocument (pathText (dir ++ [plainName])) true) bound _ _ within
        evaluated (Or.inl ⟨err, rfl, uncommitted⟩)
      refine unwatched ((same dir).mpr (AList.lookup_isSome.mp ?_))
      rw [stale]
      rfl
  · intro fresh
    exact fresh.restores

/-! ## A directory that was created again -/

/-- The directory `sub`. -/
def subName : Name :=
  ⟨"sub".toList, by decide⟩

/-- A workspace with an empty directory `sub`. -/
def emptySub : Tree :=
  ofNodes (AList.insert [subName] (.directory 2) (AList.insert [] (.directory 0) ∅))
    (by decide) (by decide)

/-- A ready workspace that watches its root and `sub`, which had the given identity. -/
def watchedSub (identity : Identity) : Shared where
  store := Store.new.setReady .empty
  watch := ⟨AList.insert [subName] identity (AList.insert [] 0 ∅), false⟩
  registration := .new

theorem watchedSub_fresh : (watchedSub 2).Fresh emptySub := by
  intro _ _ dir previous identity known located
  have isWatched : dir ∈ (watchedSub 2).watch.watched :=
    AList.lookup_isSome.mp (Option.isSome_iff_exists.mpr ⟨previous, known⟩)
  have present : dir ∈ [[subName], ([] : Key)] := isWatched
  simp only [mem_cons, not_mem_nil, or_false] at present
  rcases present with rfl | rfl
  · cases known
    cases located
    rfl
  · cases known
    cases located
    rfl

theorem watches_restored_sub : RestoresWatches sampleSite emptySub (watchedSub 2) :=
  (watches_restored_iff rfl).mpr watchedSub_fresh

/-- The selection of a file that does not exist, in a directory that was created again. -/
theorem watches_lost_recreated :
    ∃ after, Shared.evaluate sampleSite (emptySub.environment [] fun _ => []) (watchedSub 1)
        (reconcileDocument sampleSite (pathText [subName, plainName]) true).run =
          some (.ok none, after) ∧
      [subName, plainName] ∉ (watchedSub 1).store.explicitPaths ∧
      (watchedSub 1).watch.watched.keys = [[subName], []] ∧
      after.watch.watched.keys = [[]] := by
  have evaluated : (Shared.evaluate sampleSite (emptySub.environment [] fun _ => [])
      (watchedSub 1) (reconcileDocument sampleSite (pathText [subName, plainName]) true).run).map
        (fun result => (result.1.toOption, result.2.watch.watched.keys)) =
          some (some none, [[]]) := by
    decide +kernel
  obtain ⟨⟨result, after⟩, ran, facts⟩ := Option.map_eq_some_iff.mp evaluated
  obtain ⟨returned, watched⟩ := Prod.mk.inj facts
  cases result with
  | error => cases returned
  | ok =>
    cases returned
    exact ⟨after, ran, by decide, by decide, watched⟩

end Ferretd.Documents

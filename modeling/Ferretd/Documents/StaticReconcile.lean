import Ferretd.Documents.StaticLoader

/-!
# Reconciliation with a tree that does not change

What `reconcileDocument` and `reconcileTree` leave in the store, under answers that are
truthful about one tree: the commit of what the tree says, or nothing.
-/

namespace Ferretd.Documents

open Library Semantics

variable {op : Op} {shared : Shared} {failed : GoError → Shared → Prop} {first second : List Key}
  {site : Site} {env : Environment} {tree : Tree} {relativePath : Text}

theorem Shared.perform_store {answer : op.Answer} {after : Shared}
    (performed : shared.perform site env op = some (answer, after))
    (noCommit : ∀ key explicit admitted discovered,
      op ≠ .commitDocument key explicit admitted discovered)
    (noTree : ∀ subtree content, op ≠ .commitTree subtree content) :
    after.store = shared.store := by
  cases op with
  | commitDocument key explicit admitted discovered =>
    exact absurd rfl (noCommit key explicit admitted discovered)
  | commitTree subtree content => exact absurd rfl (noTree subtree content)
  | finishRegistration =>
    simp only [Shared.perform, Shared.finishRegistration] at performed
    split at performed
    · cases performed
      rfl
    · cases performed
      rfl
  | diverge => cases performed
  | _ =>
    cases performed
    rfl

/-! ## The content of a subtree -/

/-- What a reconciliation of a subtree finds under one key. -/
def treeFinding (site : Site) (env : Environment) (tree : Tree)
    (explicitPaths : List Key) (start key : Key) : Option Document :=
  (loadedFrom site env tree start key).or
    (if key ∈ explicitPaths then
      foundDocument site env (tree.selectable key) key
    else
      none)

section Content

variable {watching : Bool} {remaining explicitPaths : List Key} {content : WorkspaceContent}
  {fuel : Nat} {key : Key} (truthful : env.Truthful tree)

include truthful in
theorem finds_reconcileExplicitPaths :
    Finds site env tree True (fun _ => True)
      (fun result => ∀ key, result.documents.lookup key =
        (content.documents.lookup key).or (if key ∈ remaining then
            foundDocument site env (tree.selectable key) key
          else
            none))
      (reconcileExplicitPaths site watching remaining content) := by
  induction remaining generalizing content with
  | nil => exact .pure (by simp)
  | cons key _ ih =>
    unfold reconcileExplicitPaths
    split
    next known =>
      refine .mono ih ?_ fun _ fault => fault
      intro result shows other
      rw [shows other]
      by_cases same : other = key
      · subst same
        obtain ⟨doc, present⟩ := Option.isSome_iff_exists.mp known
        simp [present]
      · simp [same]
    next unknown =>
      refine .bind (Finds.mono (finds_discoverWorkspaceDocument truthful
        (fun impossible => absurd trivial impossible) key)
        (fun _ found => found) fun _ fault => fault) ?_
      intro discovered found
      have missing : content.documents.lookup key = none := by simpa using unknown
      have isFound : discovered.document =
          foundDocument site env (tree.selectable key) key := found
      cases located : discovered.document with
      | none | some =>
        refine .mono ih ?_ fun _ fault => fault
        intro result shows other
        rw [shows other]
        by_cases same : other = key
        · subst same
          rw [← isFound, located]
          simp [missing]
        · simp [same]

include truthful in
theorem finds_reconcileContent (within : tree.Within fuel) :
    Finds site env tree True (fun _ => True)
      (fun content => tree.eligible key = false → ∀ other, content.documents.lookup other =
        treeFinding site env tree explicitPaths key other)
      (reconcileContent site watching fuel key explicitPaths) := by
  unfold reconcileContent
  refine .bind (finds_loadWorkspaceSubtree truthful
    (fun impossible => absurd trivial impossible) within (Nat.le_refl fuel)) ?_
  intro content shows
  refine .bind (finds_reconcileExplicitPaths truthful) ?_
  intro extended found
  refine .bind (Finds.checkContext fun _ => trivial) fun _ _ => Finds.pure ?_
  intro notSource other
  rw [found other, (shows notSource).documents other]
  rfl

end Content

/-! ## The calls -/

variable {Value : Type}

abbrev Untouched (shared after : Shared) : Prop :=
  after.store = shared.store

variable {ok : Value → Shared → Prop}

theorem yields_ask_keep {rest : op.Answer → Code Value}
    (converges : op ≠ .diverge) (noCommit : ∀ key explicit admitted discovered,
      op ≠ .commitDocument key explicit admitted discovered)
    (noTree : ∀ subtree content, op ≠ .commitTree subtree content)
    (continued : ∀ answer after, shared.perform site env op = some (answer, after) →
      Untouched shared after → (serving site env).yields ok failed (rest answer) after) :
    (serving site env).yields ok failed (ask op >>= rest) shared := by
  refine yields_bind (yields_lift (ensures_ask converges ?_))
  intro answer after performed
  exact continued answer after performed (Shared.perform_store performed noCommit noTree)

theorem yields_check {err : GoError} {rest : Code Value} (refused : failed err shared)
    (continued : (serving site env).yields ok failed rest shared) :
    (serving site env).yields ok failed (check err >>= fun _ => rest) shared := by
  refine yields_bind ?_
  unfold check
  split
  · exact yields_pure continued
  · exact yields_throw refused

theorem yields_finishing {code : Code Value} (ok : Value → Store → Prop)
    (failed : Store → Prop) (implied : ∀ value store, ok value store → failed store)
    (yielded : (serving site env).yields (fun value after => ok value after.store)
      (fun _ after => failed after.store) code shared) :
    (serving site env).yields (fun value after => ok value after.store)
      (fun _ after => failed after.store) (finishing code) shared := by
  unfold finishing
  refine yields_bind (yields_attempt ?_)
  refine yields_mono ?_ ?_ yielded
  · intro value after holds
    refine yields_ask_keep nofun nofun nofun ?_
    intro finishErr last _ untouched
    rw [← untouched] at holds
    exact yields_check (implied value last.store holds) (yields_pure holds)
  · intro err after holds
    refine yields_ask_keep nofun nofun nofun ?_
    intro finishErr last _ untouched
    rw [← untouched] at holds
    exact yields_throw holds

theorem yields_find {First : Type} {found : First → Prop} {first : Code First}
    {rest : First → Code Value} (finds : Finds site env tree True (fun _ => True) found first)
    (refused : ∀ err after, Untouched shared after → failed err after)
    (continued : ∀ value after, found value → Untouched shared after →
      (serving site env).yields ok failed (rest value) after) :
    (serving site env).yields ok failed (first >>= rest) shared := by
  refine yields_bind (yields_mono ?_ ?_ (finds shared fun impossible => absurd trivial impossible))
  · rintro value after ⟨frame, holds⟩
    exact continued value after holds frame.store
  · rintro err after ⟨frame, _⟩
    exact refused err after frame.store

def TreeCommitted (site : Site) (env : Environment) (tree : Tree) (key : Key)
    (before after : Store) : Prop :=
  ∃ content : WorkspaceContent, content.Coherent site ∧
    (∀ other, content.documents.lookup other = treeFinding site env tree
      (before.explicitPaths.filter (workspacePathInSubtree · key)) key other) ∧
    after = before.applyContent key content

theorem treeFinding_congr (same : ∀ key, key ∈ first ↔ key ∈ second) (start key : Key) :
    treeFinding site env tree first start key =
      treeFinding site env tree second start key := by
  unfold treeFinding
  simp [same key]

theorem yields_reconcileTree (truthful : env.Truthful tree) {fuel : Nat} {key : Key}
    (within : tree.Within fuel) (notSource : tree.eligible key = false)
    (normalized : normalizeWorkspacePath relativePath = some key) (shared : Shared) :
    (serving site env).yields
      (fun _ after => TreeCommitted site env tree key shared.store after.store)
      (fun _ after => Untouched shared after ∨
        TreeCommitted site env tree key shared.store after.store)
      (reconcileTree site fuel relativePath) shared := by
  unfold reconcileTree
  refine yields_ask_keep nofun nofun nofun ?_
  intro err begun _ untouched
  refine yields_check (.inl untouched) ?_
  rw [normalized]
  refine yields_ask_keep nofun nofun nofun ?_
  rintro ⟨watching, explicitPaths⟩ selected performed alsoUntouched
  have explicit : explicitPaths =
      sortKeys (begun.store.explicitPaths.filter (workspacePathInSubtree · key)) := by
    cases performed
    rfl
  have store : selected.store = shared.store := alsoUntouched.trans untouched
  rw [untouched] at explicit
  refine yields_finishing
    (fun _ after => TreeCommitted site env tree key shared.store after)
    (fun after => after = shared.store ∨
      TreeCommitted site env tree key shared.store after)
    (fun _ _ committed => .inr committed) ?_
  have shape : Discovers (fun _ => True) (WorkspaceContent.Reconciled site [] explicitPaths)
      (reconcileContent site watching fuel key explicitPaths) :=
    discovers_reconcileContent List.nil_prefix (fun _ _ => List.nil_prefix)
      (fun _ _ => trivial) (fun _ _ _ _ _ => trivial)
  have finds : Finds site env tree True (fun _ => True)
      (fun content => (∀ other, content.documents.lookup other =
        treeFinding site env tree explicitPaths key other) ∧
          content.Reconciled site [] explicitPaths)
      (reconcileContent site watching fuel key explicitPaths) := by
    intro state calm
    refine yields_mono ?_ (fun _ _ failed => failed)
      (yields_issues (finds_reconcileContent truthful within state calm) shape)
    rintro content after ⟨⟨frame, found⟩, reconciled⟩
    exact ⟨frame, found notSource, reconciled⟩
  refine yields_find finds (fun _ after same => .inl (same.trans store)) ?_
  rintro content loaded ⟨found, reconciled⟩ same
  have loadedStore : loaded.store = shared.store := Eq.trans same store
  refine yields_bind (yields_lift (ensures_ask nofun ?_))
  intro commitErr after performed
  have outcome : commitErr ≠ [] ∧ after.store = shared.store ∨ commitErr = [] ∧
      TreeCommitted site env tree key shared.store after.store := by
    have lookups : ∀ other, content.documents.lookup other = treeFinding site env tree
        (shared.store.explicitPaths.filter (workspacePathInSubtree · key)) key other := by
      intro other
      rw [found other, explicit]
      exact treeFinding_congr (fun _ => mem_sortKeys) key other
    change some (loaded.commitTree env key content) = some (commitErr, after) at performed
    unfold Shared.commitTree at performed
    split at performed
    next cancelled =>
      cases performed
      exact .inl ⟨cancelled, loadedStore⟩
    split at performed
    · cases performed
      exact .inl ⟨by simp, loadedStore⟩
    · cases performed
      refine .inr ⟨rfl, content, reconciled.coherent, lookups, ?_⟩
      rw [← loadedStore]
  rcases outcome with ⟨refused, kept⟩ | ⟨rfl, committed⟩
  · refine yields_bind ?_
    rw [check, if_neg refused]
    exact yields_throw (.inl kept)
  refine yields_check (.inr committed) ?_
  split
  · refine yields_ask_keep nofun nofun nofun ?_
    intro replaceErr last _ lastUntouched
    rw [← lastUntouched] at committed
    split
    · exact yields_throw (.inr committed)
    · exact yields_pure committed
  · exact yields_pure committed

def DocumentCommitted (site : Site) (env : Environment) (tree : Tree) (key : Key)
    (explicit : Bool) (before after : Store) : Prop :=
  after = (before.commitDocument key explicit (decide (key ∈ before.explicitPaths))
    (foundDocument site env
      (tree.finds (explicit || decide (key ∈ before.explicitPaths)) key) key)).1

theorem yields_reconcileDocument (truthful : env.Truthful tree) {key : Key} (explicit : Bool)
    (normalized : normalizeDocumentPath relativePath = some key) (shared : Shared) :
    (serving site env).yields (fun _ after =>
        DocumentCommitted site env tree key explicit shared.store after.store)
      (fun _ after => Untouched shared after ∨
        DocumentCommitted site env tree key explicit shared.store after.store)
      (reconcileDocument site relativePath explicit) shared := by
  unfold reconcileDocument
  refine yields_ask_keep nofun nofun nofun ?_
  intro err begun _ untouched
  refine yields_check (.inl untouched) ?_
  rw [normalized]
  refine yields_ask_keep nofun nofun nofun ?_
  rintro ⟨watching, admitted⟩ selected performed alsoUntouched
  have isAdmitted : admitted = decide (key ∈ shared.store.explicitPaths) := by
    rw [← untouched]
    cases performed
    rfl
  have store : selected.store = shared.store := alsoUntouched.trans untouched
  refine yields_finishing
    (fun _ after => DocumentCommitted site env tree key explicit shared.store after)
    (fun after => after = shared.store ∨
      DocumentCommitted site env tree key explicit shared.store after)
    (fun _ _ committed => .inr committed) ?_
  refine yields_find (finds_discoverWorkspaceDocument truthful
    (fun impossible => absurd trivial impossible) key |>.mono (fun _ found => found)
      fun _ fault => fault) (fun _ after same => .inl (same.trans store)) ?_
  intro discovered loaded found same
  have context : Finds site env tree True (fun _ => True)
      (fun _ => env.ctxErr = []) checkContext :=
    Finds.checkContext fun _ => trivial
  refine yields_find context (fun _ after kept => .inl (kept.trans (Eq.trans same store))) ?_
  intro _ checked _ kept
  have checkedStore : checked.store = shared.store := Eq.trans kept (Eq.trans same store)
  refine yields_bind (yields_lift (ensures_ask nofun ?_))
  intro answer after committing
  change some (checked.commitDocument env key explicit admitted discovered.document) =
    some (answer, after) at committing
  unfold Shared.commitDocument at committing
  split at committing
  · cases committing
    exact yields_throw (.inl checkedStore)
  split at committing
  · cases committing
    exact yields_throw (.inl checkedStore)
  cases committing
  refine yields_pure ?_
  show DocumentCommitted site env tree key explicit shared.store
    (checked.store.commitDocument key explicit admitted discovered.document).1
  rw [DocumentCommitted, checkedStore, found, isAdmitted]

end Ferretd.Documents

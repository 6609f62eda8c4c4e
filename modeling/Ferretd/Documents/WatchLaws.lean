import Ferretd.Documents.Machine

/-!
# What the operations do to the watches

One inversion lemma for `addDirectory` and one lookup lemma for the removal of watches.
-/

namespace Ferretd.Documents

namespace Watch

/-- The outcomes of `addDirectory`: whether it reports a new watch, and the watches
afterwards.  A watch with another identity is removed before a new one is installed. -/
inductive AddEffect (env : Environment) (watch : Watch) (dir : Key) :
    Bool → Watch → Prop
  | kept : AddEffect env watch dir false watch
  | dropped {identity : Identity} {after : Watch} (open_ : watch.closed = false)
      (current : env.directoryInfo dir = .ok identity)
      (other : watch.watched.lookup dir ≠ some identity)
      (lookups : ∀ key, after.watched.lookup key =
        if key = dir then none else watch.watched.lookup key) :
      AddEffect env watch dir false after
  | installed {identity : Identity} {after : Watch} (open_ : watch.closed = false)
      (current : env.directoryInfo dir = .ok identity)
      (other : watch.watched.lookup dir ≠ some identity)
      (lookups : ∀ key, after.watched.lookup key =
        if key = dir then some identity else watch.watched.lookup key) :
      AddEffect env watch dir true after

theorem erase_lookup (watch : Watch) (dir key : Key) :
    (watch.watched.erase dir).lookup key =
      if key = dir then none else watch.watched.lookup key := by
  split
  next same =>
    rw [same]
    exact AList.lookup_erase _ _
  next different => exact AList.lookup_erase_ne different

theorem insert_lookup (watch : Watch) (dir key : Key) (identity : Identity) :
    (watch.watched.insert dir identity).lookup key =
      if key = dir then some identity else watch.watched.lookup key := by
  split
  next same =>
    rw [same]
    exact AList.lookup_insert _
  next different => exact AList.lookup_insert_ne different

variable {env : Environment} {watch after removed : Watch} {dir key : Key} {site : Site}
  {identity : Identity} {added : Bool}

theorem AddEffect.of_install (open_ : watch.closed = false)
    (current : env.directoryInfo dir = .ok identity) (unwatched : watch.watched.lookup dir = none) :
    AddEffect env watch dir
      (watch.install site env dir identity).1.1
      (watch.install site env dir identity).2 := by
  have other : watch.watched.lookup dir ≠ some identity := by
    rw [unwatched]
    exact nofun
  unfold install
  split
  · exact .kept
  cases env.directoryInfoAfter dir with
  | error => exact .dropped open_ current other (erase_lookup watch dir)
  | ok =>
    dsimp only
    split
    · exact .dropped open_ current other (erase_lookup watch dir)
    rename_i same
    rw [not_not.mp same]
    exact .installed open_ current other fun key => insert_lookup watch dir key identity

theorem AddEffect.of_reinstall (open_ : watch.closed = false)
    (current : env.directoryInfo dir = .ok identity)
    (other : watch.watched.lookup dir ≠ some identity)
    (lookups : ∀ key, removed.watched.lookup key =
      if key = dir then none else watch.watched.lookup key)
    (effect : AddEffect env removed dir added after) :
    AddEffect env watch dir added after := by
  cases effect with
  | kept => exact .dropped open_ current other lookups
  | dropped _ _ _ again =>
    refine .dropped open_ current other ?_
    intro key
    rw [again, lookups]
    split <;> rfl
  | installed _ alsoCurrent _ again =>
    rw [current] at alsoCurrent
    cases alsoCurrent
    refine .installed open_ current other ?_
    intro key
    rw [again, lookups]
    split <;> rfl

theorem AddEffect.of_addDirectory (site : Site) (env : Environment) (watch : Watch) (dir : Key) :
    AddEffect env watch dir
      (watch.addDirectory site env dir).1.1
      (watch.addDirectory site env dir).2 := by
  unfold addDirectory
  split
  · exact .kept
  rename_i opened
  have open_ : watch.closed = false := Bool.eq_false_iff.mpr opened
  cases current : env.directoryInfo dir with
  | error => exact .kept
  | ok identity =>
    cases known : watch.watched.lookup dir with
    | none => exact .of_install open_ current known
    | some =>
      dsimp only
      split
      · exact .kept
      rename_i differs
      have other : watch.watched.lookup dir ≠ some identity := by
        rw [known]
        exact fun same => differs (Option.some.inj same)
      split
      · exact .dropped open_ current other (erase_lookup watch dir)
      have removedOpen :
          (watch.removeDirectory site env dir).2.closed = false :=
        open_
      refine .of_reinstall open_ current other (erase_lookup watch dir)
        (.of_install removedOpen current ?_)
      exact AList.lookup_erase _ _

theorem AddEffect.mem (effect : AddEffect env watch dir added after)
    (present : key ∈ after.watched) :
    key ∈ watch.watched ∨ added = true ∧ key = dir := by
  rw [← AList.lookup_isSome] at present ⊢
  cases effect with
  | kept => exact Or.inl present
  | dropped _ _ _ lookups =>
    rw [lookups] at present
    split at present
    · cases present
    · exact Or.inl present
  | installed _ _ _ lookups =>
    rw [lookups] at present
    split at present
    next same => exact Or.inr ⟨rfl, same⟩
    · exact Or.inl present

theorem removeDirectories_lookup (directories : List Key) (result : GoError) (watch : Watch)
    (key : Key) :
    (removeDirectories site env directories (result, watch)).2.watched.lookup key =
      if key ∈ directories then none else watch.watched.lookup key := by
  induction directories generalizing result watch with
  | nil => simp [removeDirectories]
  | cons dir _ ih =>
    unfold removeDirectories
    dsimp only
    rw [ih, removeDirectory, erase_lookup]
    by_cases same : key = dir <;> simp [same]

theorem mem_removeDirectories (directories : List Key) (result : GoError) (watch : Watch)
    (key : Key) :
    key ∈ (removeDirectories site env directories (result, watch)).2.watched ↔
      key ∈ watch.watched ∧ key ∉ directories := by
  rw [← AList.lookup_isSome, removeDirectories_lookup, ← AList.lookup_isSome]
  by_cases listed : key ∈ directories <;> simp [listed]

/-! ## Subtrees -/

theorem atOrBelow_eq {subtree : Key} (proper : site.root ≠ [] ∨ subtree ≠ []) :
    atOrBelow site dir subtree = workspacePathInSubtree dir subtree := by
  have named : site.root ++ subtree ≠ [] := by
    rcases proper with named | named <;> simp [named]
  rw [Bool.eq_iff_iff, atOrBelow, watcherPathAtOrBelow_iff named, workspacePathInSubtree_iff,
    List.prefix_append_right_inj]

theorem atOrBelow_root (atRoot : site.root = []) :
    atOrBelow site dir [] = decide (dir = []) := by
  rw [Bool.eq_iff_iff, atOrBelow, atRoot, decide_eq_true_eq]
  exact watcherPathAtOrBelow_root

/-- What `ReplaceSubtree` and `WatchesSubtree` take for the subtree of a key is what
`workspacePathInSubtree` takes for it: afterwards the watched directories are those
outside it and the listed ones inside, and a watch is found exactly if one is inside.
This is so except for the whole of the file system, where it needs that `"."` is watched
or nothing is, and that every other watched directory is listed. -/
theorem watched_subtree_iff (site : Site) (env : Environment) (watch : Watch)
    (subtree : Key) (directories : List Key) :
    ((∀ dir,
        dir ∈ (watch.replaceSubtree site env subtree directories).2.watched ↔
          dir ∈ watch.watched ∧ (workspacePathInSubtree dir subtree = false ∨
            dir ∈ directories)) ∧
      (watch.watchesSubtree site subtree = true ↔
        ∃ dir ∈ watch.watched, workspacePathInSubtree dir subtree = true)) ↔
    (site.root ≠ [] ∨ subtree ≠ [] ∨
      (∀ dir ∈ watch.watched, dir = [] ∨ dir ∈ directories) ∧
        ([] ∈ watch.watched ∨ ∀ dir, dir ∉ watch.watched)) := by
  have replaced : ∀ dir,
      dir ∈ (watch.replaceSubtree site env subtree directories).2.watched ↔
        dir ∈ watch.watched ∧ (atOrBelow site dir subtree = false ∨
          dir ∈ directories) := by
    intro dir
    rw [replaceSubtree, mem_removeDirectories, List.mem_filter, ← AList.mem_keys]
    cases atOrBelow site dir subtree <;> simp +contextual
  have found : watch.watchesSubtree site subtree = true ↔
      ∃ dir ∈ watch.watched, atOrBelow site dir subtree = true := by
    simp [watchesSubtree, ← AList.mem_keys]
  simp only [replaced, found]
  by_cases proper : site.root ≠ [] ∨ subtree ≠ []
  · have same : ∀ dir, atOrBelow site dir subtree =
        workspacePathInSubtree dir subtree := fun _ => atOrBelow_eq proper
    simp only [same, implies_true, and_true, true_iff]
    exact proper.imp_right Or.inl
  obtain ⟨atRoot, rfl⟩ : site.root = [] ∧ subtree = [] := by
    simpa only [not_or, not_not] using proper
  have inside : ∀ dir, workspacePathInSubtree dir [] = true :=
    fun _ => workspacePathInSubtree_iff.mpr List.nil_prefix
  simp only [atOrBelow_root atRoot, inside, atRoot, ne_eq, not_true, false_or, decide_eq_true_eq,
    decide_eq_false_iff_not, Bool.true_eq_false, and_true, exists_eq_right]
  refine and_congr (forall_congr' fun dir => ?_) ?_
  · by_cases listed : dir ∈ directories <;> simp [listed]
  · by_cases watched : [] ∈ watch.watched
    · simp only [watched, true_or, iff_true, true_iff]
      exact ⟨[], watched⟩
    · simp [watched]

/-- Below the file system root: a directory that is not listed stays watched when the
whole tree is replaced, and is not found in it. -/
theorem watched_subtree_kept :
    let site : Site := ⟨[], id, fun _ _ => [], true⟩
    let missing : Environment := ⟨[], [], [], fun _ => .error [], fun _ => .error [],
      fun _ => .error [], fun _ => .error [], fun _ => .error [], fun _ => .error [],
      fun _ => .error [], fun _ => .error [], fun _ => .error [], fun _ => [], fun _ => []⟩
    let dir : Key := [⟨['a'], by decide⟩]
    let watch : Watch := ⟨AList.singleton dir 1, false⟩
    workspacePathInSubtree dir [] = true ∧
      (watch.replaceSubtree site missing [] []).2.watched.keys = [dir] ∧
      watch.watchesSubtree site [] = false :=
  ⟨rfl, rfl, rfl⟩

end Watch

end Ferretd.Documents

import Ferretd.Documents.StaticReconcile
import Ferretd.Documents.StoreLaws

/-!
# Watch events

After `reconcileWatchEvent` for a change at a path the retained documents are those of the
changed tree, with their contents, unless the path has the name of a source file.
-/

namespace Ferretd.Documents

open Library Documents.Tree List

/-! ## Two trees that differ below one path -/

/-- Nothing is different but at or below the path. -/
def Tree.DiffersAt (before after : Tree) (path : Key) : Prop :=
  ∀ key, ¬path <+: key → after.nodes.lookup key = before.nodes.lookup key

/-- The documents that a workspace retains of a tree. -/
def Tree.retains (tree : Tree) (explicitPaths : List Key) (key : Key) : Bool :=
  tree.eligible key || (decide (key ∈ explicitPaths) && tree.selectable key)

/-- The content of a regular file. -/
def Tree.content (tree : Tree) (key : Key) : Option Content :=
  match tree.nodes.lookup key with
  | some (.regular _ content) => some content
  | _ => none

/-- What is retained under a key is what the tree has there: a document if there is one to
retain, and the content of the file if the document could be read. -/
def Tree.Fits (tree : Tree) (explicitPaths : List Key) (key : Key)
    (retained : Option Document.Reading) : Prop :=
  retained.isSome = tree.retains explicitPaths key ∧
    ∀ reading ∈ retained, reading.loaded = true → tree.content key = some reading.content

variable {name : Name} {region : Key}

section Differs

variable {before after : Tree} {path : Key}

theorem Tree.DiffersAt.kind (differs : before.DiffersAt after path) {key : Key}
    (outside : ¬path <+: key) : after.kind key = before.kind key := by
  rw [Tree.kind, Tree.kind, Tree.info, Tree.info, differs key outside]

variable {dir : Key}

theorem prefix_concat_cases (below : path <+: dir ++ [name]) :
    path = dir ++ [name] ∨ path <+: dir :=
  prefix_concat_iff.mp below

section

variable (differs : before.DiffersAt after path)
include differs

theorem Tree.DiffersAt.isModule (outside : ¬path <+: dir) (other : dir ++ [goMod] ≠ path) :
    after.isModule dir = before.isModule dir := by
  have child : ¬path <+: dir ++ [goMod] := by
    intro below
    rcases prefix_concat_cases below with same | under
    · exact other same.symm
    · exact outside under
  rw [Tree.isModule, Tree.isModule, differs.kind child]

theorem Tree.DiffersAt.enters (outside : ¬path <+: dir)
    (other : ∀ ancestor, ancestor <+: dir → ancestor ++ [goMod] ≠ path) :
    after.enters dir = before.enters dir := by
  induction dir using List.reverseRecOn with
  | nil => rfl
  | append_singleton parent _ ih =>
    have above : ¬path <+: parent := fun under => outside (under.trans (prefix_append _ _))
    have parents : ∀ ancestor, ancestor <+: parent → ancestor ++ [goMod] ≠ path :=
      fun ancestor under => other ancestor (under.trans (prefix_append _ _))
    rw [enters_concat, enters_concat, ih above parents,
      passes, passes, differs.kind outside,
      differs.isModule outside (other _ prefix_rfl)]

theorem Tree.DiffersAt.retains {key : Key} (explicitPaths : List Key) (inside : region <+: path)
    (other : ∀ ancestor, ancestor ++ [goMod] = path → region <+: ancestor)
    (outside : ¬region <+: key) :
    after.retains explicitPaths key = before.retains explicitPaths key := by
  have outsidePath : ¬path <+: key := fun below => outside (inside.trans below)
  have sameKind := differs.kind outsidePath
  have entered : after.enters (keyDir key) = before.enters (keyDir key) := by
    refine differs.enters ?_ ?_
    · intro below
      exact outsidePath (below.trans ( dropLast_prefix key))
    · intro ancestor under same
      exact outside (((other ancestor same).trans under).trans ( dropLast_prefix key))
  simp [Tree.retains, eligible, selectable, entered, sameKind]

theorem Tree.DiffersAt.fits {key : Key} {explicitPaths : List Key}
    {retained : Option Document.Reading} (inside : region <+: path)
    (other : ∀ ancestor, ancestor ++ [goMod] = path → region <+: ancestor)
    (outside : ¬region <+: key) (fits : before.Fits explicitPaths key retained) :
    after.Fits explicitPaths key retained := by
  have sameNode := differs key fun below => outside (inside.trans below)
  rw [Tree.Fits, differs.retains explicitPaths inside other outside, Tree.content, sameNode]
  exact fits

end

end Differs

/-! ## What a commit retains -/

/-- What is read of a regular file is its content. -/
structure Environment.Shows (env : Environment) (tree : Tree) : Prop where
  readFile :
    ∀ key bytes, tree.kind key = some .regular → env.readFile key = .ok bytes →
      tree.content key = some bytes
  readAll :
    ∀ key handle bytes, tree.kind key = some .regular → env.openFile key = .ok handle →
      env.readAll handle = .ok bytes → tree.content key = some bytes

/-- The file can be read, by the loader and by the discovery of one document. -/
def Environment.ReadsFile (env : Environment) (key : Key) : Prop :=
  (∃ bytes, env.readFile key = .ok bytes) ∧
    ∃ handle info bytes, env.openFile key = .ok handle ∧
      env.handleInfo handle = .ok info ∧ env.readAll handle = .ok bytes

/-- A document has the content of its file, and could be read if that is possible. -/
def Document.Tells (env : Environment) (tree : Tree) (key : Key) (doc : Document) :
    Prop :=
  (doc.loaded = true → tree.content key = some doc.content) ∧
    (env.ReadsFile key → doc.loaded = true)

/-- After a commit the store fits the tree in `scope` and is as before elsewhere. -/
structure Store.Commits (env : Environment) (tree : Tree) (explicitPaths : List Key)
    (scope : Key → Bool) (before after : Store) : Prop where
  inside :
    ∀ key, scope key = true → tree.Fits explicitPaths key (after.readingAt key) ∧
      ∀ reading ∈ after.readingAt key, env.ReadsFile key → reading.loaded = true
  outside : ∀ key, scope key = false → after.readingAt key = before.readingAt key

variable {site : Site} {env : Environment} {tree : Tree} {before after : Store}
variable {path key start : Key} {explicitPaths : List Key} {doc : Document}
variable {found : Option Document} {scope : Key → Bool}

section Reading

variable (shows : env.Shows tree) (regular : tree.kind key = some .regular)
include shows regular

theorem loadedDocument_tells : (loadedDocument site env key).Tells env tree key := by
  unfold loadedDocument
  split
  next failed =>
    refine ⟨nofun, fun readable => ?_⟩
    obtain ⟨bytes, read⟩ := readable.1
    rw [failed] at read
    cases read
  next read => exact ⟨fun _ => shows.readFile key _ regular read, fun _ => rfl⟩

theorem inspectedDocument_tells :
    (inspectedDocument site env key).Tells env tree key := by
  unfold inspectedDocument
  split
  next failed =>
    refine ⟨nofun, fun readable => ?_⟩
    obtain ⟨handle, info, bytes, opened, -⟩ := readable.2
    rw [failed] at opened
    cases opened
  next handle opened =>
    refine ⟨?_, ?_⟩
    · split
      · exact nofun
      split
      · exact nofun
      next read => exact fun _ => shows.readAll key handle _ regular opened read
    · rintro ⟨-, other, info, bytes, alsoOpened, informed, read⟩
      cases opened.symm.trans alsoOpened
      rw [informed]
      dsimp only
      rw [read]
      rfl

end Reading

theorem regular_of_retains (retained : tree.retains explicitPaths key = true) :
    tree.kind key = some .regular := by
  simp only [Tree.retains, eligible, selectable, Bool.or_eq_true, Bool.and_eq_true,
    decide_eq_true_eq] at retained
  tauto

/-- What is found of a file that the tree retains. -/
theorem fits_of_tells (isFound : found.isSome = tree.retains explicitPaths key)
    (tells : tree.retains explicitPaths key = true →
      ∀ doc ∈ found, doc.Tells env tree key) :
    tree.Fits explicitPaths key (found.map Document.reading) ∧
      ∀ reading ∈ found.map Document.reading, env.ReadsFile key →
        reading.loaded = true := by
  cases found with
  | none => exact ⟨⟨isFound, nofun⟩, nofun⟩
  | some doc =>
    obtain ⟨content, loaded⟩ := tells isFound.symm doc rfl
    refine ⟨⟨isFound, ?_⟩, ?_⟩
    all_goals
      rintro _ ⟨⟩
    · exact content
    · exact loaded

theorem treeFinding_isSome (below : workspacePathInSubtree key start = true) :
    (treeFinding site env tree
      (explicitPaths.filter (workspacePathInSubtree · start)) start key).isSome =
        tree.retains explicitPaths key := by
  simp only [treeFinding, loadedFrom, foundDocument, mem_filter, below, and_true,
    Bool.true_and, Tree.retains]
  cases tree.eligible key <;> cases tree.selectable key <;>
    by_cases selected : key ∈ explicitPaths <;> simp [selected]

theorem treeFinding_tells (shows : env.Shows tree)
    (regular : tree.kind key = some .regular) {selections : List Key}
    (isFound : treeFinding site env tree selections start key = some doc) :
    doc.Tells env tree key := by
  rcases Option.or_eq_some_iff.mp isFound with loaded | ⟨-, selected⟩
  · unfold loadedFrom at loaded
    split at loaded
    · cases loaded
      exact loadedDocument_tells shows regular
    · cases loaded
  · split at selected
    · unfold foundDocument at selected
      split at selected
      · cases selected
        exact inspectedDocument_tells shows regular
      · cases selected
    · cases selected

theorem TreeCommitted.commits (shows : env.Shows tree)
    (committed : TreeCommitted site env tree start before after) :
    before.Commits env tree before.explicitPaths (workspacePathInSubtree · start) after := by
  obtain ⟨content, coherent, lookups, rfl⟩ := committed
  constructor
  all_goals
    intro key isInside
    rw [Store.applyContent_readingAt coherent, lookups, isInside]
  · rw [if_pos rfl, Option.or_none]
    exact fits_of_tells (treeFinding_isSome isInside) fun retained doc isFound =>
      treeFinding_tells shows (regular_of_retains retained) isFound
  · simp [treeFinding, loadedFrom, isInside]

theorem finds_eq_retains (explicitPaths : List Key) (key : Key) :
    tree.finds (false || decide (key ∈ explicitPaths)) key = tree.retains explicitPaths key := by
  by_cases selected : key ∈ explicitPaths
  · cases isEligible : tree.eligible key with
    | true => simp [finds, Tree.retains, selected, isEligible, selectable_of_eligible isEligible]
    | false => simp [finds, Tree.retains, selected, isEligible]
  · simp [finds, Tree.retains, selected]

theorem DocumentCommitted.commits (shows : env.Shows tree)
    (committed : DocumentCommitted site env tree path false before after) :
    before.Commits env tree before.explicitPaths (fun key => decide (key = path)) after := by
  rw [DocumentCommitted, finds_eq_retains] at committed
  rw [committed]
  constructor
  all_goals
    intro key isPath
    rw [Store.commitDocument_readingAt]
  · obtain rfl := of_decide_eq_true isPath
    rw [if_pos rfl]
    refine fits_of_tells ?_ ?_
    · unfold foundDocument
      cases tree.retains before.explicitPaths key <;> rfl
    · intro retained doc isFound
      rw [foundDocument, retained] at isFound
      cases isFound
      exact inspectedDocument_tells shows (regular_of_retains retained)
  · rw [if_neg (of_decide_eq_false isPath)]

/-! ## The event -/

/-- The workspace retains the documents of a tree. -/
def Store.Retains (tree : Tree) (explicitPaths : List Key) (store : Store) : Prop :=
  ∀ key, tree.Fits explicitPaths key (store.readingAt key)

/-- Every directory that discovery enters is watched, and every directory above an
explicit selection. -/
structure Shared.WatchesTree (tree : Tree) (shared : Shared) : Prop where
  watching : shared.store.watching = true
  entered : ∀ dir, tree.enters dir = true → dir ∈ shared.watch.watched
  selected :
    ∀ key ∈ shared.store.explicitPaths, ∀ dir, dir <+: keyDir key →
      tree.kind dir = some .directory → dir ∈ shared.watch.watched

/-- What is retained strictly below a path is the same in both trees, with the contents of
the documents that have been read. -/
def SameBelow (before after : Tree) (store : Store) (path : Key) : Prop :=
  ∀ key, path <+: key → key ≠ path →
    after.retains store.explicitPaths key = before.retains store.explicitPaths key ∧
      ∀ reading ∈ store.readingAt key, reading.loaded = true →
        after.content key = before.content key

/-- What an event leaves in the store: the documents of the changed tree, exactly if those
below a path with the name of a source file are still the same; and none is unread that
could be read, unless it has not been looked at. -/
structure EventSettles (env : Environment) (before after : Tree) (path : Key)
    (store last : Store) : Prop where
  retains_iff :
    last.Retains after store.explicitPaths ↔
      (isSourceKey path = true → SameBelow before after store path)
  reads :
    ∀ key, ∀ reading ∈ last.readingAt key, env.ReadsFile key →
      reading.loaded = true ∨ store.readingAt key = some reading

theorem pathAtOrBelow_refl (text : Text) : pathAtOrBelow text text = true := by
  simp [pathAtOrBelow]

theorem retains_cases (retained : tree.retains explicitPaths key = true) :
    tree.eligible key = true ∨ key ∈ explicitPaths ∧ tree.selectable key = true := by
  simpa [Tree.retains] using retained

theorem selectable_of_retains (retained : tree.retains explicitPaths key = true) :
    tree.selectable key = true := by
  rcases retains_cases retained with isEligible | ⟨_, isSelectable⟩
  · exact selectable_of_eligible isEligible
  · exact isSelectable

theorem Tree.retains_unsourced (notSource : isSourceKey key = false) :
    tree.retains explicitPaths key = false := by
  rw [Bool.eq_false_iff]
  intro retained
  have isSelectable := selectable_of_retains retained
  rw [selectable, notSource, Bool.and_false] at isSelectable
  cases isSelectable

theorem Tree.directory_of_retains (retained : tree.retains explicitPaths key = true)
    (below : path <+: key) (different : key ≠ path) :
    tree.kind path = some .directory := by
  have isSelectable := selectable_of_retains retained
  rw [selectable, Bool.and_eq_true, decide_eq_true_eq] at isSelectable
  exact kind_of_above below (fun same => different same.symm) isSelectable.1

section Event

variable {before after : Tree} {path dir : Key} {shared last : Shared}

theorem Store.Commits.retains_iff {before last : Store}
    (commits : before.Commits env tree explicitPaths scope last) :
    last.Retains tree explicitPaths ↔
      ∀ key, scope key = false → tree.Fits explicitPaths key (before.readingAt key) := by
  constructor
  · intro retains key outside
    rw [← commits.outside key outside]
    exact retains key
  · intro fits key
    cases inside : scope key with
    | true => exact (commits.inside key inside).1
    | false =>
      rw [commits.outside key inside]
      exact fits key inside

theorem Store.Commits.reads {before last : Store}
    (commits : before.Commits env tree explicitPaths scope last) (key : Key) :
    ∀ reading ∈ last.readingAt key, env.ReadsFile key →
      reading.loaded = true ∨ before.readingAt key = some reading := by
  intro reading retained readable
  cases inside : scope key with
  | true => exact .inl ((commits.inside key inside).2 reading retained readable)
  | false => exact .inr ((commits.outside key inside).symm.trans retained)

theorem TreeCommitted.settles (shows : env.Shows after)
    (differs : before.DiffersAt after path) (notSource : isSourceKey path = false)
    (inside : region <+: path)
    (other : ∀ ancestor, ancestor ++ [goMod] = path → region <+: ancestor)
    (retains : shared.store.Retains before shared.store.explicitPaths)
    (committed : TreeCommitted site env after region shared.store last.store) :
    EventSettles env before after path shared.store last.store := by
  have commits := committed.commits shows
  refine ⟨iff_of_true (commits.retains_iff.mpr fun key outside => ?_) ?_, commits.reads⟩
  · refine differs.fits inside other (fun below => ?_) (retains key)
    rw [workspacePathInSubtree_iff.mpr below] at outside
    cases outside
  · rw [notSource]
    exact nofun

theorem DocumentCommitted.settles (shows : env.Shows after)
    (differs : before.DiffersAt after path) (source : isSourceKey path = true)
    (retains : shared.store.Retains before shared.store.explicitPaths)
    (committed : DocumentCommitted site env after path false shared.store last.store) :
    EventSettles env before after path shared.store last.store := by
  have notModule : ∀ ancestor, ancestor ++ [goMod] ≠ path := by
    rintro ancestor rfl
    rw [isSourceKey_concat, goMod_not_source] at source
    cases source
  have commits := committed.commits shows
  refine ⟨commits.retains_iff.trans ⟨fun fits _ key below different => ?_,
    fun same key different => ?_⟩, commits.reads⟩
  · obtain ⟨isRetained, content⟩ := fits key (decide_eq_false different)
    obtain ⟨wasRetained, wasContent⟩ := retains key
    refine ⟨isRetained.symm.trans wasRetained, fun reading present loaded => ?_⟩
    rw [content reading present loaded, wasContent reading present loaded]
  · by_cases below : path <+: key
    · obtain ⟨sameRetained, sameContent⟩ := same source key below (of_decide_eq_false different)
      obtain ⟨wasRetained, wasContent⟩ := retains key
      refine ⟨wasRetained.trans sameRetained.symm, fun reading present loaded => ?_⟩
      rw [sameContent reading present loaded]
      exact wasContent reading present loaded
    · exact differs.fits prefix_rfl
        (fun ancestor isModule => absurd isModule (notModule ancestor)) below (retains key)

/-- Nothing is retained at or below a path that names no directory, no source file and no
watched directory. -/
theorem retains_unwatched (watches : shared.WatchesTree before)
    (differs : before.DiffersAt after path) (notSource : isSourceKey path = false)
    (notModule : ∀ ancestor, ancestor ++ [goMod] ≠ path)
    (notDirectory : after.kind path ≠ some .directory)
    (unwatched : shared.watch.watchesSubtree site path = false)
    (retains : shared.store.Retains before shared.store.explicitPaths) :
    shared.store.Retains after shared.store.explicitPaths := by
  have notWatched : path ∉ shared.watch.watched := by
    intro present
    rw [Watch.watchesSubtree, any_eq_false] at unwatched
    exact unwatched path present (pathAtOrBelow_refl _)
  have notAfter : ∀ key, path <+: key → after.retains shared.store.explicitPaths key = false := by
    intro key below
    rw [Bool.eq_false_iff]
    intro retained
    by_cases same : key = path
    · rw [same, retains_unsourced notSource] at retained
      cases retained
    · exact notDirectory (directory_of_retains retained below same)
  have notBefore : ∀ key, path <+: key →
      before.retains shared.store.explicitPaths key = false := by
    intro key below
    rw [Bool.eq_false_iff]
    intro retained
    by_cases same : key = path
    · rw [same, retains_unsourced notSource] at retained
      cases retained
    rcases retains_cases retained with isEligible | ⟨selected, _⟩
    · exact notWatched (watches.entered path
        (enters_of_eligible isEligible below fun equal => same equal.symm))
    refine notWatched (watches.selected key selected path ?_
      (directory_of_retains retained below same))
    obtain ⟨rest, rfl⟩ := below
    rcases key_cases rest with rfl | ⟨middle, name, rfl⟩
    · simp at same
    · rw [keyDir, ← append_assoc, dropLast_concat]
      exact prefix_append _ _
  intro key
  by_cases below : path <+: key
  · obtain ⟨isSome, content⟩ := retains key
    rw [notBefore key below, Option.isSome_eq_false_iff, Option.isNone_iff_eq_none] at isSome
    rw [Tree.Fits, isSome, notAfter key below]
    exact ⟨rfl, nofun⟩
  · exact differs.fits prefix_rfl
      (fun ancestor isModule => absurd isModule (notModule ancestor)) below (retains key)

theorem Tree.DiffersAt.parent (differs : before.DiffersAt after (dir ++ [name]))
    (there : dir ++ [name] ∈ before.nodes ∨ dir ++ [name] ∈ after.nodes) :
    after.kind dir = some .directory := by
  rcases there with was | is
  · have outside : ¬dir ++ [name] <+: dir := by
      intro below
      have shorter := below.length_le
      simp only [length_append, length_singleton] at shorter
      omega
    obtain ⟨kind, known⟩ := kind_of_mem was
    rw [differs.kind outside]
    exact kind_parent known
  · obtain ⟨kind, known⟩ := kind_of_mem is
    exact kind_parent known

theorem Tree.eligible_directory (isDirectory : tree.kind dir = some .directory) :
    tree.eligible dir = false := by
  rw [Bool.eq_false_iff]
  intro isEligible
  obtain ⟨_, _, _, _, regular, _⟩ := eligible_cases isEligible
  rw [isDirectory] at regular
  cases regular

section Yields

variable {state : Shared} {relativePath : Text} (shows : env.Shows after)
  (truthful : env.Truthful after) {fuel : Nat} (within : after.Within fuel)
variable (differs : before.DiffersAt after path)
variable (retains : shared.store.Retains before shared.store.explicitPaths)

include shows truthful within differs retains in
theorem yields_region (notSource : isSourceKey path = false) (inside : region <+: path)
    (other : ∀ ancestor, ancestor ++ [goMod] = path → region <+: ancestor)
    (unsourced : after.eligible region = false) (same : Untouched shared state) :
    (serving site env).yields
      (fun _ last => EventSettles env before after path shared.store last.store)
      (fun _ _ => True) (reconcileTree site fuel (pathText region)) state := by
  refine Semantics.yields_mono ?_ (fun _ _ _ => trivial)
    (yields_reconcileTree truthful within unsourced (normalizeWorkspacePath_pathText region) state)
  intro _ last committed
  rw [same] at committed
  exact committed.settles shows differs notSource inside other retains

include shows truthful within differs retains in
theorem yields_whenWatched (watches : shared.WatchesTree before)
    (notSource : isSourceKey path = false) (notModule : ∀ ancestor, ancestor ++ [goMod] ≠ path)
    (notDirectory : after.kind path ≠ some .directory)
    (same : Untouched shared state) (sameWatch : state.watch = shared.watch) :
    (serving site env).yields
      (fun _ last => EventSettles env before after path shared.store last.store)
      (fun _ _ => True)
      (do
        if ← ask (.watchesSubtree path) then
          reconcileTree site fuel (pathText path)
        else
          return none) state := by
  refine yields_ask_keep nofun nofun nofun ?_
  intro watched next performed alsoSame
  have answered : watched = shared.watch.watchesSubtree site path := by
    cases performed
    rw [same, watches.watching, sameWatch]
    rfl
  have unsourced : after.eligible path = false := by
    rw [eligible, notSource, Bool.and_false]
  split
  · exact yields_region shows truthful within differs retains notSource prefix_rfl
      (fun ancestor isModule => absurd isModule (notModule ancestor)) unsourced
      (alsoSame.trans same)
  -- No directory at or below the path is watched, so nothing was retained there either.
  rename_i unwatched
  rw [Bool.not_eq_true] at unwatched
  rw [unwatched] at answered
  refine Semantics.yields_pure ?_
  rw [show next.store = shared.store from alsoSame.trans same]
  refine ⟨iff_of_true (retains_unwatched watches differs notSource notModule notDirectory
    answered.symm retains) ?_, fun _ _ present _ => .inr present⟩
  intro isSource
  cases notSource.symm.trans isSource

include shows truthful within differs retains in
theorem yields_inspected (watches : shared.WatchesTree before) (isPath : path = dir ++ [name])
    (isDirectory : after.kind dir = some .directory) (notSource : isSourceKey path = false)
    (notModule : ∀ ancestor, ancestor ++ [goMod] ≠ path) :
    (serving site env).yields
      (fun _ last => EventSettles env before after path shared.store last.store)
      (fun _ _ => True)
      (do
        match ← ask (.lstatAbsolute path) with
        | .ok info =>
          if info.kind = .directory then
            reconcileTree site fuel (pathText path)
          else if ← ask (.watchesSubtree path) then
            reconcileTree site fuel (pathText path)
          else
            return none
        | .error err =>
          if !err.is .notExist then
            throw err
          else if ← ask (.watchesSubtree path) then
            reconcileTree site fuel (pathText path)
          else
            return none) shared := by
  refine yields_ask_keep nofun nofun nofun ?_
  intro answer state performed same
  have sameWatch : state.watch = shared.watch := by
    cases performed
    rfl
  have answered : env.lstatAbsolute path = answer := by
    cases performed
    rfl
  cases answer with
  | ok info =>
    have isKind : after.kind path = some info.kind := by
      rw [isPath] at answered ⊢
      rw [Tree.kind, truthful.absolute_shows dir name info isDirectory answered]
      rfl
    dsimp only
    split
    · have unsourced : after.eligible path = false := by
        rw [eligible, notSource, Bool.and_false]
      exact yields_region shows truthful within differs retains notSource prefix_rfl
        (fun ancestor isModule => absurd isModule (notModule ancestor)) unsourced same
    rename_i other
    refine yields_whenWatched shows truthful within differs retains watches notSource notModule
      ?_ same sameWatch
    rw [isKind]
    intro impossible
    exact other (Option.some.inj impossible)
  | error err =>
    dsimp only
    split
    · exact Semantics.yields_throw trivial
    rename_i missing
    refine yields_whenWatched shows truthful within differs retains watches notSource notModule
      ?_ same sameWatch
    intro isKind
    rw [truthful.absolute_present _ err (mem_of_kind isKind) answered] at missing
    simp at missing

include shows truthful within differs retains in
theorem yields_reconcileWatchEvent (there : path ∈ before.nodes ∨ path ∈ after.nodes)
    (watches : shared.WatchesTree before)
    (normalized : normalizeWorkspacePath relativePath = some path) :
    (serving site env).yields
      (fun _ last => EventSettles env before after path shared.store last.store)
      (fun _ _ => True) (reconcileWatchEvent site fuel false relativePath) shared := by
  unfold reconcileWatchEvent
  rw [normalized]
  rcases key_cases path with rfl | ⟨dir, name, isPath⟩
  · exact yields_region shows truthful within differs retains rfl prefix_rfl
      (fun _ _ => nil_prefix) (eligible_directory kind_root) rfl
  have base : keyBase path = some name := by simp [isPath, keyBase]
  have above : keyDir path = dir := by simp [isPath, keyDir]
  have isSource : isSourceKey path = isWorkspaceSource name := by
    rw [isPath, isSourceKey_concat]
  have isDirectory : after.kind dir = some .directory := by
    rw [isPath] at differs there
    exact differs.parent there
  dsimp only
  rw [base]
  dsimp only
  split
  next isModule =>
    rw [above]
    refine yields_region shows truthful within differs retains ?_ ?_ ?_
      (eligible_directory isDirectory) rfl
    · rw [isSource, isModule]
      exact goMod_not_source
    · rw [isPath]
      exact prefix_append _ _
    · intro ancestor same
      rw [isPath] at same
      rw [(append_inj' same rfl).1]
  next ordinary =>
    have notModule : ∀ ancestor, ancestor ++ [goMod] ≠ path := by
      intro ancestor same
      rw [isPath] at same
      have last := (append_inj' same rfl).2
      simp only [List.cons.injEq, and_true] at last
      exact ordinary last.symm
    split
    next impossible => cases impossible
    split
    next source =>
      rw [← isSource] at source
      refine Semantics.yields_mono ?_ (fun _ _ _ => trivial)
        (yields_reconcileDocument truthful false
          (normalizeDocumentPath_pathText (by rw [isPath]; simp)) shared)
      intro _ last committed
      exact committed.settles shows differs source retains
    next notSource =>
      rw [Bool.not_eq_true, ← isSource] at notSource
      exact yields_inspected shows truthful within differs retains watches isPath isDirectory
        notSource notModule

end Yields

/-- A change at a path and the event for it, which is no rename. -/
theorem watch_event_converges_iff (shows : env.Shows after)
    (truthful : env.Truthful after) {fuel : Nat} (within : after.Within fuel)
    (differs : before.DiffersAt after path)
    (there : path ∈ before.nodes ∨ path ∈ after.nodes)
    (retains : shared.store.Retains before shared.store.explicitPaths)
    (watches : shared.WatchesTree before) {relativePath : Text}
    (normalized : normalizeWorkspacePath relativePath = some path) {doc : Option Document}
    (ran : shared.evaluate site env
      (reconcileWatchEvent site fuel false relativePath).run = some (.ok doc, last)) :
    EventSettles env before after path shared.store last.store := by
  have yielded : (serving site env).yields
      (fun _ last => EventSettles env before after path shared.store last.store)
      (fun _ _ => True) (reconcileWatchEvent site fuel false relativePath) shared :=
    yields_reconcileWatchEvent shows truthful within differs retains there watches normalized
  obtain ⟨result, after_, evaluated, holds⟩ := Shared.evaluate_of_ensures yielded
  rw [ran] at evaluated
  cases evaluated
  exact holds

end Event

/-! ## Two events -/

def emptyRoot : Tree :=
  ofNodes (AList.insert [] (.directory 0) ∅) (by decide) (by decide)

/-- The directory `x.fql`. -/
def sourceNamed : Name :=
  ⟨"x.fql".toList, by decide⟩

/-- A workspace with the file `a.fql` in a directory `x.fql`. -/
def sourceDirectory : Tree :=
  ofNodes (AList.insert [sourceNamed, plainName] (.regular 2 "RETURN 1".toList)
    (AList.insert [sourceNamed] (.directory 1) (AList.insert [] (.directory 0) ∅)))
    (by decide) (by decide)

/-- A ready workspace without documents that watches its root. -/
def watchedRoot : Shared where
  store := Store.new.setReady .empty
  watch := ⟨AList.insert [] 0 ∅, false⟩
  registration := .new

theorem emptyRoot_retains (explicitPaths : List Key) (key : Key) :
    emptyRoot.retains explicitPaths key = false := by
  rw [Bool.eq_false_iff]
  intro retained
  have isSelectable := selectable_of_retains retained
  rw [selectable, Bool.and_eq_true, decide_eq_true_eq] at isSelectable
  have present : key ∈ [([] : Key)] := mem_of_kind isSelectable.1
  rw [mem_singleton.mp present] at isSelectable
  cases isSelectable.2

theorem watchedRoot_retains :
    watchedRoot.store.Retains emptyRoot watchedRoot.store.explicitPaths := by
  intro key
  rw [Tree.Fits, emptyRoot_retains]
  exact ⟨rfl, nofun⟩

theorem watchedRoot_watches : watchedRoot.WatchesTree emptyRoot := by
  have onlyRoot : ∀ dir, emptyRoot.kind dir = some .directory →
      dir ∈ watchedRoot.watch.watched := by
    intro dir isDirectory
    have present : dir ∈ [([] : Key)] := mem_of_kind isDirectory
    exact present
  exact ⟨rfl, fun dir entered => onlyRoot dir (enters_directory entered),
    fun _ _ dir _ isDirectory => onlyRoot dir isDirectory⟩

theorem differsAt_of_keys {before after : Tree}
    (same : ∀ key ∈ before.nodes.keys ++ after.nodes.keys, ¬path <+: key →
      after.nodes.lookup key = before.nodes.lookup key) :
    before.DiffersAt after path := by
  intro key outside
  by_cases known : key ∈ before.nodes.keys ++ after.nodes.keys
  · exact same key known outside
  · rw [mem_append, not_or] at known
    rw [AList.lookup_eq_none.mpr known.1, AList.lookup_eq_none.mpr known.2]

theorem Tree.environment_shows {ctxErr : GoError} {unlinked : Handle → Content} :
    (tree.environment ctxErr unlinked).Shows tree := by
  have node : ∀ key, tree.kind key = some .regular → ∃ identity content,
      tree.nodes.lookup key = some (.regular identity content) := by
    intro key regular
    obtain ⟨info, located, isRegular⟩ := Tree.kind_some regular
    obtain ⟨node, present, rfl⟩ := Option.map_eq_some_iff.mp located
    cases node with
    | regular identity content => exact ⟨identity, content, present⟩
    | _ => cases isRegular
  constructor
  · intro key bytes regular read
    obtain ⟨identity, content, present⟩ := node key regular
    simp only [Tree.environment, present] at read
    split at read
    · cases read
    · cases read
      simp [Tree.content, present]
  · intro key handle bytes regular opened read
    obtain ⟨identity, content, present⟩ := node key regular
    simp only [Tree.environment, Tree.info, present, Option.map_some, Except.ok.injEq] at opened
    subst opened
    simp only [Tree.environment, present, Node.info, if_true, Except.ok.injEq] at read
    simp [Tree.content, present, read]

/-- The file `a.fql` is created, and the event retains it with its content. -/
theorem watch_event_converges_create :
    ∃ doc last, watchedRoot.evaluate sampleSite
        ((oneFile plainName).environment [] fun _ => [])
        (reconcileWatchEvent sampleSite 2 false (pathText [plainName])).run =
          some (.ok doc, last) ∧
      (last.store.readingAt [plainName]).map Document.Reading.content =
        some "RETURN 1".toList ∧
      EventSettles ((oneFile plainName).environment [] fun _ => []) emptyRoot
        (oneFile plainName) [plainName] watchedRoot.store last.store := by
  have returned : (watchedRoot.evaluate sampleSite ((oneFile plainName).environment [] fun _ => [])
      (reconcileWatchEvent sampleSite 2 false (pathText [plainName])).run).map
        (fun result => (result.1.isOk,
          (result.2.store.readingAt [plainName]).map Document.Reading.content)) =
            some (true, some "RETURN 1".toList) := by
    decide +kernel
  obtain ⟨⟨result, last⟩, ran, facts⟩ := Option.map_eq_some_iff.mp returned
  obtain ⟨isOk, content⟩ := Prod.mk.inj facts
  cases result with
  | error => cases isOk
  | ok doc =>
    exact ⟨doc, last, ran, content, watch_event_converges_iff Tree.environment_shows
      (Tree.environment_truthful rfl) (by decide) (differsAt_of_keys (by decide)) (by decide)
      watchedRoot_retains watchedRoot_watches (normalizeWorkspacePath_pathText _) ran⟩

/-- A directory with the name of a source file is created with a source file in it. -/
theorem watch_event_diverges_directory :
    emptyRoot.DiffersAt sourceDirectory [sourceNamed] ∧
      watchedRoot.store.Retains emptyRoot watchedRoot.store.explicitPaths ∧
      watchedRoot.WatchesTree emptyRoot ∧
      ∃ doc last, watchedRoot.evaluate sampleSite
          (sourceDirectory.environment [] fun _ => [])
          (reconcileWatchEvent sampleSite 3 false (pathText [sourceNamed])).run =
            some (.ok doc, last) ∧
        ¬last.store.Retains sourceDirectory watchedRoot.store.explicitPaths := by
  refine ⟨differsAt_of_keys (by decide), watchedRoot_retains, watchedRoot_watches, ?_⟩
  have returned : (watchedRoot.evaluate sampleSite (sourceDirectory.environment [] fun _ => [])
      (reconcileWatchEvent sampleSite 3 false (pathText [sourceNamed])).run).map
        (fun result => (result.1.isOk,
          result.2.store.readingAt [sourceNamed, plainName])) = some (true, none) := by
    decide +kernel
  obtain ⟨⟨result, last⟩, ran, facts⟩ := Option.map_eq_some_iff.mp returned
  obtain ⟨isOk, missing⟩ := Prod.mk.inj facts
  cases result with
  | error => cases isOk
  | ok doc =>
    refine ⟨doc, last, ran, ?_⟩
    intro converged
    have retained := (converged [sourceNamed, plainName]).1
    rw [missing] at retained
    exact absurd retained (by decide)

end Ferretd.Documents

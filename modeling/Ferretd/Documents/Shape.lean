import Ferretd.Documents.Refresh

/-!
# What discovery does under any answers

Whatever the file system answers, the files that discovery finds are distinct, lie below
the directory it was asked for and are not in an excluded directory.
-/

namespace Ferretd.Documents

open Library List

/-- The operations of discovery; `observable` says which directories may be watched. -/
def Op.discovers (observable : Key → Prop) : Op → Prop
  | .observe dir => observable dir
  | .ctxErr | .openRoot | .closeRoot | .readDir _ | .lstat _ | .openFile _ | .handleInfo _
  | .readAll _ | .readFile _ | .diverge => True
  | _ => False

variable {found first second : Found} {file : File} {name left right : Name}
  {entries : List DirEntry} {entry : DirEntry} {walkChild : Key → Code Found} {selectedRoot : Bool}
  {doc : Document} {start : Key} {pathInfo : FileInfo} {remaining : List Key} {site : Site}
  {observable : Key → Prop}

abbrev Discovers {Value : Type} (observable : Key → Prop) (ok : Value → Prop)
    (code : Code Value) : Prop :=
  Issues (Op.discovers observable) ok code

namespace Discovers

variable {op : Op} {dir : Key} {watching : Bool}

theorem ask (permitted : op.discovers observable) :
    Discovers observable (fun _ => True) (Documents.ask op) :=
  Issues.lift ⟨permitted, fun _ => trivial⟩

theorem check (err : GoError) : Discovers observable (fun _ => True) (Documents.check err) := by
  unfold Documents.check
  split
  · exact .pure trivial
  · exact .throw err

theorem checkContext : Discovers observable (fun _ => True) Documents.checkContext :=
  Issues.bind (ask trivial) fun err _ => check err

theorem observe (permitted : observable dir) :
    Discovers observable (fun _ => True) (Documents.observe watching dir) := by
  unfold Documents.observe
  split
  · exact ask permitted
  · exact .pure trivial

theorem workspacePathMissing (key : Key) (err : GoError) :
    Discovers observable (fun _ => True) (Documents.workspacePathMissing key err) := by
  unfold Documents.workspacePathMissing
  split
  · exact .pure trivial
  split
  · exact .pure trivial
  refine .bind (ask trivial) ?_
  intro answer _
  split <;> exact .pure trivial

end Discovers

/-! ## The loader -/

/-- The files are those of distinct keys below the directory, outside of excluded
directories. -/
structure FoundBelow (site : Site) (dir : Key) (found : Found) : Prop where
  files :
    ∀ file ∈ found.files, ∃ rest name, file = fileOf site (dir ++ rest ++ [name]) ∧
      hasExcluded rest = false
  nodup : (found.files.map File.relativePath).Nodup

theorem FoundBelow.none (dir : Key) : FoundBelow site dir .none :=
  ⟨nofun, nodup_nil⟩

theorem FoundBelow.listed (dir : Key) (directories : List Key) :
    FoundBelow site dir ⟨[], directories⟩ :=
  ⟨nofun, nodup_nil⟩

/-- The files lie at or below one of the entries of the directory. -/
def FoundAmong (dir : Key) (entries : List DirEntry) (found : Found) : Prop :=
  ∀ file ∈ found.files, ∃ entry ∈ entries, dir ++ [entry.name] <+: file.relativePath

variable {dir key subtree : Key}

theorem FoundBelow.relativePath (below : FoundBelow site dir found)
    (present : file ∈ found.files) : dir <+: file.relativePath := by
  obtain ⟨rest, name, rfl, _⟩ := below.files file present
  exact ⟨rest ++ [name], by simp [fileOf]⟩

theorem FoundBelow.child (below : FoundBelow site (dir ++ [name]) found)
    (kept : isExcludedDirectory name = false) : FoundBelow site dir found := by
  refine ⟨?_, below.nodup⟩
  intro file present
  obtain ⟨rest, base, rfl, clean⟩ := below.files file present
  refine ⟨name :: rest, base, by simp, ?_⟩
  simpa [hasExcluded, kept] using clean

theorem name_eq_of_prefixes (first : dir ++ [left] <+: key)
    (second : dir ++ [right] <+: key) : left = right := by
  obtain ⟨leftRest, rfl⟩ := first
  obtain ⟨rightRest, same⟩ := second
  simp only [append_assoc, append_cancel_left_eq, singleton_append, List.cons.injEq] at same
  exact same.1.symm

theorem FoundBelow.append (left : FoundBelow site dir first) (right : FoundBelow site dir second)
    (leftAmong : FoundAmong dir [entry] first) (rightAmong : FoundAmong dir entries second)
    (distinct : ∀ other ∈ entries, entry.name ≠ other.name) :
    FoundBelow site dir (first.append second) := by
  constructor
  · intro file present
    rcases mem_append.mp present with inFirst | inSecond
    · exact left.files file inFirst
    · exact right.files file inSecond
  simp only [Found.append, map_append]
  refine nodup_append.mpr ⟨left.nodup, right.nodup, ?_⟩
  intro key inFirst other inSecond same
  subst same
  obtain ⟨file, present, rfl⟩ := mem_map.mp inFirst
  obtain ⟨otherFile, otherPresent, sameKey⟩ := mem_map.mp inSecond
  obtain ⟨_, isEntry, below⟩ := leftAmong file present
  obtain ⟨otherEntry, isOther, otherBelow⟩ := rightAmong otherFile otherPresent
  cases mem_singleton.mp isEntry
  rw [sameKey] at otherBelow
  exact distinct otherEntry isOther (name_eq_of_prefixes below otherBelow)

theorem discovers_visitEntry (walks : isExcludedDirectory entry.name = false →
      Discovers observable (FoundBelow site (dir ++ [entry.name]))
        (walkChild (dir ++ [entry.name]))) :
    Discovers observable
      (fun found => FoundBelow site dir found ∧ FoundAmong dir [entry] found)
      (visitEntry site walkChild dir entry) := by
  have nothing : FoundBelow site dir .none ∧ FoundAmong dir [entry] .none :=
    ⟨FoundBelow.none dir, nofun⟩
  unfold visitEntry
  dsimp only
  split
  · exact .pure nothing
  split
  · split
    · exact .pure nothing
    rename_i kept
    have clean : isExcludedDirectory entry.name = false := by simpa using kept
    refine .mono (walks clean) ?_
    intro found below
    refine ⟨below.child clean, ?_⟩
    intro file present
    exact ⟨entry, mem_singleton_self entry, below.relativePath present⟩
  · split
    · exact .pure nothing
    refine .bind (Discovers.ask trivial) ?_
    intro answer _
    split
    · exact .throw _
    split
    · exact .pure nothing
    rw [newFile_eq]
    refine .pure ⟨⟨?_, by simp⟩, ?_⟩
    · intro file present
      cases mem_singleton.mp present
      exact ⟨[], entry.name, by simp, rfl⟩
    · intro file present
      cases mem_singleton.mp present
      exact ⟨entry, mem_singleton_self entry, prefix_rfl⟩

theorem discovers_walkEntries
    (sorted : entries.Pairwise fun left right => left.name.text < right.name.text)
    (walks : ∀ entry ∈ entries, isExcludedDirectory entry.name = false →
      Discovers observable (FoundBelow site (dir ++ [entry.name]))
        (walkChild (dir ++ [entry.name]))) :
    Discovers observable
      (fun found => FoundBelow site dir found ∧ FoundAmong dir entries found)
      (walkEntries site walkChild dir entries) := by
  induction entries with
  | nil => exact .pure ⟨FoundBelow.none dir, nofun⟩
  | cons entry _ ih =>
    obtain ⟨below, sortedRest⟩ := pairwise_cons.mp sorted
    have walksRest := ih sortedRest fun other present =>
      walks other (mem_cons_of_mem entry present)
    refine .bind Discovers.checkContext fun _ _ => ?_
    refine .bind (discovers_visitEntry (walks entry mem_cons_self)) ?_
    intro found first
    refine .bind walksRest ?_
    intro others second
    refine .pure ⟨first.1.append second.1 first.2 second.2 ?_, ?_⟩
    · intro other present same
      have less := below other present
      rw [same] at less
      exact lt_irrefl _ less
    intro file present
    rcases mem_append.mp present with inFirst | inSecond
    · obtain ⟨_, isEntry, under⟩ := first.2 file inFirst
      cases mem_singleton.mp isEntry
      exact ⟨entry, mem_cons_self, under⟩
    · obtain ⟨other, isOther, under⟩ := second.2 file inSecond
      exact ⟨other, mem_cons_of_mem entry isOther, under⟩

/-- The directories that a walk from a directory may watch. -/
def WalkObserves (observable : Key → Prop) (dir : Key) : Prop :=
  ∀ rest, hasExcluded rest = false → observable (dir ++ rest)

theorem WalkObserves.child (observes : WalkObserves observable dir)
    (kept : isExcludedDirectory name = false) :
    WalkObserves observable (dir ++ [name]) := by
  intro rest clean
  have permitted := observes (name :: rest) (by simpa [hasExcluded, kept] using clean)
  simpa using permitted

variable {watching explicit : Bool} {fuel : Nat}

theorem discovers_walk (observes : WalkObserves observable dir) :
    Discovers observable (FoundBelow site dir)
      (walk site watching fuel dir selectedRoot) := by
  induction fuel generalizing dir selectedRoot with
  | zero =>
    refine .bind (Discovers.ask trivial) ?_
    intro impossible
    cases impossible
  | succ fuel ih =>
    have here : observable dir := by simpa using observes [] rfl
    unfold walk
    refine .bind Discovers.checkContext fun _ _ => ?_
    refine .bind (Discovers.ask trivial) ?_
    intro answer _
    cases answer with
    | error =>
      dsimp only
      split
      · exact .throw _
      refine .bind (Discovers.workspacePathMissing _ _) ?_
      intro missing _
      split
      · exact .bind Discovers.checkContext fun _ _ =>
          Issues.pure (FoundBelow.none dir)
      · exact .throw _
    | ok listing =>
      refine .bind (Discovers.observe here) ?_
      intro err _
      split
      · split
        · exact .bind Discovers.checkContext fun _ _ =>
            Issues.pure (FoundBelow.none dir)
        · exact .throw _
      split
      · exact .pure (FoundBelow.listed dir _)
      have walks : ∀ entry ∈ listing.entries, isExcludedDirectory entry.name = false →
          Discovers observable (FoundBelow site (dir ++ [entry.name]))
            (walk site watching fuel (dir ++ [entry.name]) false) :=
        fun entry _ kept => ih (observes.child kept)
      refine .bind (discovers_walkEntries listing.sorted walks) ?_
      intro found below
      exact .pure ⟨below.1.files, below.1.nodup⟩

/-- What a load returns: every key once, with a first document of its file. -/
structure WorkspaceContent.Coherent (site : Site) (content : WorkspaceContent) : Prop where
  nodup : content.order.Nodup
  keys : ∀ key, key ∈ content.order ↔ key ∈ content.documents
  fresh :
    ∀ key doc, content.documents.lookup key = some doc →
      doc.file = fileOf site key ∧ doc.revision = 1

/-- The indexes of a load, as `setReady` takes them over. -/
structure WorkspaceContent.Indexed (site : Site) (content : WorkspaceContent) : Prop where
  sorted : content.order.Pairwise fun left right => pathText left < pathText right
  files : content.files = content.order.map (fileOf site)

/-- The keys of a load lie below its start, outside of excluded directories. -/
def WorkspaceContent.Below (start : Key) (content : WorkspaceContent) : Prop :=
  ∀ key ∈ content.order, ∃ rest name, key = start ++ rest ++ [name] ∧ hasExcluded rest = false

theorem WorkspaceContent.Coherent.empty : WorkspaceContent.empty.Coherent site := by
  refine ⟨nodup_nil, ?_, ?_⟩
  · intro key
    simp [WorkspaceContent.empty]
  · intro key doc present
    simp [WorkspaceContent.empty] at present

variable {content : WorkspaceContent}

theorem WorkspaceContent.Coherent.insert
    (coherent : content.Coherent site) (absent : key ∉ content.order)
    (file : doc.file = fileOf site key) (first : doc.revision = 1) :
    WorkspaceContent.Coherent site { content with
      documents := content.documents.insert key doc
      order := content.order ++ [key] } := by
  constructor
  · refine nodup_append.mpr ⟨coherent.nodup, by simp, ?_⟩
    intro other present last isLast same
    cases mem_singleton.mp isLast
    rw [same] at present
    exact absent present
  · intro other
    rw [AList.mem_insert, mem_append, mem_singleton, coherent.keys, or_comm]
  · intro other found present
    by_cases same : other = key
    · subst same
      rw [AList.lookup_insert] at present
      cases present
      exact ⟨file, first⟩
    · rw [AList.lookup_insert_ne same] at present
      exact coherent.fresh other found present

theorem discovers_readDocument :
    Discovers observable
      (fun doc => doc.file = fileOf site key ∧ doc.revision = 1)
      (readDocument site (fileOf site key)) := by
  unfold readDocument
  refine .bind (Discovers.ask trivial) ?_
  intro answer _
  cases answer with
  | error => exact .pure ⟨rfl, rfl⟩
  | ok => exact .bind Discovers.checkContext fun _ _ => Issues.pure ⟨rfl, rfl⟩

variable {keys explicitPaths : List Key}

theorem discovers_readFiles (coherent : content.Coherent site)
    (distinct : (content.order ++ keys).Nodup) :
    Discovers observable
      (fun result => result.Coherent site ∧ result.order = content.order ++ keys ∧
        result.files = content.files)
      (readFiles site (keys.map (fileOf site)) content) := by
  induction keys generalizing content with
  | nil => exact .pure ⟨coherent, by simp, rfl⟩
  | cons key _ ih =>
    rw [map_cons]
    refine .bind Discovers.checkContext fun _ _ => ?_
    refine .bind discovers_readDocument ?_
    intro doc fresh
    have absent : key ∉ content.order := by
      intro present
      exact (nodup_append.mp distinct).2.2 key present key mem_cons_self rfl
    have extended := coherent.insert absent fresh.1 fresh.2
    refine .mono (ih extended ?_) ?_
    · rw [append_assoc]
      exact distinct
    intro result facts
    refine ⟨facts.1, ?_, facts.2.2⟩
    rw [facts.2.1, append_assoc]
    rfl

theorem pairwise_lt_of_nodup (nodup : keys.Nodup)
    (sorted : keys.Pairwise fun left right => pathText left ≤ pathText right) :
    keys.Pairwise fun left right => pathText left < pathText right := by
  refine List.Pairwise.imp₂ ?_ nodup sorted
  intro left right different le
  exact lt_of_le_of_ne le fun same => different (pathText_injective same)

instance : Std.Total fun left right : Key => pathText left ≤ pathText right :=
  ⟨fun left right => le_total (pathText left) (pathText right)⟩

instance : IsTrans Key fun left right => pathText left ≤ pathText right :=
  ⟨fun _ _ _ first second => le_trans first second⟩

theorem sortKeys_sorted (nodup : keys.Nodup) :
    (sortKeys keys).Pairwise fun left right => pathText left < pathText right := by
  refine pairwise_lt_of_nodup ?_ (pairwise_insertionSort _ keys)
  exact (perm_insertionSort _ keys).nodup_iff.mpr nodup

theorem mem_sortKeys : key ∈ sortKeys keys ↔ key ∈ keys :=
  (perm_insertionSort _ keys).mem_iff

theorem sortFiles_eq (keys : List Key) : (keys.map (fileOf site)).insertionSort (fun left right =>
      pathText left.relativePath ≤ pathText right.relativePath) =
      (sortKeys keys).map (fileOf site) := by
  unfold sortKeys
  exact (map_insertionSort _ _ (fileOf site) keys fun _ _ _ _ => Iff.rfl).symm

theorem FoundBelow.files_eq (below : FoundBelow site dir found) :
    found.files = (found.files.map File.relativePath).map (fileOf site) := by
  rw [map_map]
  refine (map_id found.files).symm.trans (map_congr_left ?_)
  intro file present
  obtain ⟨rest, name, rfl, _⟩ := below.files file present
  rfl

theorem discovers_discoverFiles (observes : WalkObserves observable start) :
    Discovers observable
      (fun found => ∃ keys : List Key, found.files = (sortKeys keys).map (fileOf site) ∧
        keys.Nodup ∧ ∀ key ∈ keys, ∃ rest name, key = start ++ rest ++ [name] ∧
          hasExcluded rest = false)
      (discoverFiles site watching fuel start) := by
  unfold discoverFiles
  dsimp only
  split
  · exact .pure ⟨[], rfl, nodup_nil, nofun⟩
  refine .bind (discovers_walk observes) ?_
  intro found below
  refine .pure ⟨found.files.map File.relativePath, ?_, below.nodup, ?_⟩
  · dsimp only
    rw [← sortFiles_eq, ← below.files_eq]
  intro key present
  obtain ⟨file, isFile, rfl⟩ := mem_map.mp present
  obtain ⟨rest, name, rfl, clean⟩ := below.files file isFile
  exact ⟨rest, name, rfl, clean⟩

structure WorkspaceContent.Loaded (site : Site) (start : Key) (content : WorkspaceContent) :
    Prop where
  coherent : content.Coherent site
  indexed : content.Indexed site
  below : content.Below start

theorem WorkspaceContent.Loaded.empty (start : Key) :
    WorkspaceContent.empty.Loaded site start :=
  ⟨Coherent.empty, ⟨List.Pairwise.nil, rfl⟩, nofun⟩

theorem discovers_loadWorkspaceTree (observes : WalkObserves observable start) :
    Discovers observable (WorkspaceContent.Loaded site start)
      (loadWorkspaceTree site watching fuel start) := by
  unfold loadWorkspaceTree
  refine .bind (discovers_discoverFiles observes) ?_
  rintro ⟨_, directories⟩ ⟨keys, rfl, nodup, below⟩
  have coherent : WorkspaceContent.Coherent site
      ⟨(sortKeys keys).map (fileOf site), ∅, [], directories⟩ :=
    ⟨nodup_nil, by simp, by simp⟩
  have distinct : ([] ++ sortKeys keys).Nodup :=
    (perm_insertionSort _ keys).nodup_iff.mpr nodup
  refine .mono (discovers_readFiles coherent distinct) ?_
  rintro content ⟨isCoherent, order, files⟩
  rw [nil_append] at order
  refine ⟨isCoherent, ⟨by rw [order]; exact sortKeys_sorted nodup, ?_⟩, ?_⟩
  · rw [order, files]
  · intro key present
    rw [order] at present
    exact below key (mem_sortKeys.mp present)

theorem Discovers.closeAfter {Value : Type} {ok : Value → Prop} {code : Code Value}
    (discovered : Discovers observable ok code) :
    Discovers observable ok (Documents.closeAfter code) := by
  unfold Documents.closeAfter
  refine .bind (Issues.attempt discovered) ?_
  intro result holds
  refine .bind (Discovers.ask trivial) ?_
  intro closeErr _
  cases result with
  | error => exact .throw _
  | ok value =>
    exact .bind (Discovers.check _) fun _ _ => Issues.pure (holds value rfl)

theorem discovers_loadWorkspace (observes : WalkObserves observable []) :
    Discovers observable (WorkspaceContent.Loaded site [])
      (loadWorkspace site watching fuel) := by
  unfold loadWorkspace
  refine .bind (Discovers.ask trivial) fun err _ => ?_
  exact .bind (Discovers.check err) fun _ _ =>
    Discovers.closeAfter (discovers_loadWorkspaceTree observes)

theorem discovers_validateWorkspaceDirectory (current : Key) (components : List Name) :
    Discovers observable (fun eligible => eligible = true → hasExcluded components = false)
      (validateWorkspaceDirectory current components) := by
  induction components generalizing current with
  | nil => exact .pure fun _ => rfl
  | cons component rest ih =>
    have missing : ∀ err, Discovers observable
        (fun eligible => eligible = true → hasExcluded (component :: rest) = false)
        (do if ← workspacePathMissing (current ++ [component]) err then
              return false
            else
              throw err) := by
      intro err
      refine .bind (Discovers.workspacePathMissing _ _) ?_
      intro gone _
      split
      · exact .pure nofun
      · exact .throw _
    unfold validateWorkspaceDirectory
    dsimp only
    split
    · exact .pure nofun
    rename_i kept
    refine .bind (Discovers.ask trivial) ?_
    intro answer _
    cases answer with
    | error err => exact missing err
    | ok =>
      dsimp only
      split
      · exact .pure nofun
      split
      next last =>
        refine .pure fun _ => ?_
        rw [isEmpty_iff.mp last]
        simpa [hasExcluded] using kept
      refine .bind (Discovers.ask trivial) ?_
      intro listed _
      cases listed with
      | error err => exact missing err
      | ok =>
        dsimp only
        split
        · exact .pure nofun
        refine .mono (ih _) ?_
        intro eligible clean isEligible
        have rest := clean isEligible
        simp only [hasExcluded, any_cons, Bool.or_eq_false_iff] at rest ⊢
        exact ⟨by simpa using kept, rest⟩

theorem discovers_loadEligibleSubtree (observes : WalkObserves observable key) :
    Discovers observable (WorkspaceContent.Loaded site key)
      (loadEligibleSubtree site watching fuel key) := by
  unfold loadEligibleSubtree
  refine .bind (Issues.attempt (discovers_loadWorkspaceTree observes)) ?_
  intro result holds
  cases result with
  | ok content => exact .pure (holds content rfl)
  | error =>
    dsimp only
    split
    · exact .bind Discovers.checkContext fun _ _ =>
        Issues.pure (WorkspaceContent.Loaded.empty key)
    · exact .throw _

/-- A load of a subtree finds nothing in an excluded directory. -/
structure WorkspaceContent.Discovered (site : Site) (subtree : Key)
    (content : WorkspaceContent) : Prop where
  coherent : content.Coherent site
  below : ∀ key ∈ content.order, subtree <+: key ∧ hasExcluded (keyDir key) = false

theorem WorkspaceContent.Loaded.discovered (loaded : content.Loaded site subtree)
    (clean : hasExcluded subtree = false) : content.Discovered site subtree := by
  refine ⟨loaded.coherent, ?_⟩
  intro key present
  obtain ⟨rest, name, rfl, restClean⟩ := loaded.below key present
  refine ⟨⟨rest ++ [name], by simp⟩, ?_⟩
  simp only [keyDir, dropLast_concat, hasExcluded, any_append] at clean restClean ⊢
  rw [clean, restClean]
  rfl

theorem discovers_loadWorkspaceSubtree
    (observes : ∀ dir, hasExcluded dir = false → observable dir) :
    Discovers observable (WorkspaceContent.Discovered site key)
      (loadWorkspaceSubtree site watching fuel key) := by
  have load : hasExcluded key = false →
      Discovers observable (WorkspaceContent.Discovered site key)
        (closeAfter (loadEligibleSubtree site watching fuel key)) := by
    intro clean
    refine .mono (Discovers.closeAfter (discovers_loadEligibleSubtree ?_)) ?_
    · intro rest restClean
      apply observes
      simp only [hasExcluded, any_append] at clean restClean ⊢
      rw [clean, restClean]
      rfl
    · intro content loaded
      exact loaded.discovered clean
  have nothing : WorkspaceContent.empty.Discovered site key :=
    ⟨WorkspaceContent.Coherent.empty, nofun⟩
  unfold loadWorkspaceSubtree
  refine .bind (Discovers.ask trivial) fun err _ => ?_
  refine .bind (Discovers.check err) fun _ _ => ?_
  split
  next root => exact load (by rw [root]; rfl)
  refine .bind (Issues.attempt (discovers_validateWorkspaceDirectory [] key)) ?_
  intro result eligible
  cases result with
  | error => exact .bind (Discovers.ask trivial) fun _ _ => Issues.throw _
  | ok value =>
    cases value with
    | false =>
      exact .bind (Discovers.ask trivial) fun closeErr _ =>
        Issues.bind (Discovers.check closeErr) fun _ _ => Issues.pure nothing
    | true => exact load (eligible true rfl rfl)

/-! ## One document -/

/-- The directories that the validation of a document's ancestors may watch. -/
def AncestorsObserved (observable : Key → Prop) (explicit : Bool) (key : Key) : Prop :=
  ∀ dir, dir <+: keyDir key → (explicit = false → hasExcluded dir = false) →
    observable dir

theorem discovers_validateComponents {current : Key} {directories : List Key}
    {components : List Name} (clean : explicit = false → hasExcluded current = false)
    (observes : ∀ dir, dir <+: current ++ components →
      (explicit = false → hasExcluded dir = false) → observable dir) :
    Discovers observable
      (fun result => result.2 = true → explicit = false → hasExcluded components = false)
      (validateComponents watching explicit current directories components) := by
  induction components generalizing current directories with
  | nil => exact .pure fun _ _ => rfl
  | cons component rest ih =>
    have missing : ∀ (passed : List Key) (err : GoError), Discovers observable
        (fun result => result.2 = true → explicit = false →
          hasExcluded (component :: rest) = false)
        (do if ← workspacePathMissing (current ++ [component]) err then
              return (passed, false)
            else
              throw err) := by
      intro passed err
      refine .bind (Discovers.workspacePathMissing _ _) ?_
      intro gone _
      split
      · exact .pure nofun
      · exact .throw _
    unfold validateComponents
    dsimp only
    refine .bind Discovers.checkContext fun _ _ => ?_
    split
    · exact .pure nofun
    rename_i admitted
    have kept : explicit = false → isExcludedDirectory component = false := by
      intro implicit
      simpa [implicit] using admitted
    have nextClean : explicit = false → hasExcluded (current ++ [component]) = false := by
      intro implicit
      have before := clean implicit
      simp only [hasExcluded, any_append, any_cons, any_nil] at before ⊢
      rw [before, kept implicit]
      rfl
    have continues : ∀ passed, Discovers observable
        (fun result => result.2 = true → explicit = false →
          hasExcluded (component :: rest) = false)
        (validateComponents watching explicit (current ++ [component]) passed rest) := by
      intro passed
      refine .mono (ih nextClean (by simpa using observes)) ?_
      intro result restClean eligible implicit
      have tail := restClean eligible implicit
      simp only [hasExcluded, any_cons, Bool.or_eq_false_iff] at tail ⊢
      exact ⟨kept implicit, tail⟩
    refine .bind (Discovers.ask trivial) ?_
    intro answer _
    cases answer with
    | error err => exact missing _ err
    | ok =>
      dsimp only
      split
      · exact .pure nofun
      refine .bind (Discovers.observe (observes _ ⟨rest, by simp⟩ nextClean)) ?_
      intro err _
      split
      · split
        · exact .pure nofun
        · exact .throw _
      split
      · exact continues _
      refine .bind (Discovers.ask trivial) ?_
      intro listed _
      cases listed with
      | error err => exact missing _ err
      | ok =>
        dsimp only
        split
        · exact .pure nofun
        · exact continues _

theorem discovers_validateDocumentAncestors (observes : AncestorsObserved observable explicit key) :
    Discovers observable
      (fun result => result.2 = true → explicit = false → hasExcluded (keyDir key) = false)
      (validateDocumentAncestors watching explicit key) := by
  unfold validateDocumentAncestors
  refine .bind (Discovers.observe (observes [] nil_prefix fun _ => rfl)) ?_
  intro err _
  refine .bind (Discovers.check err) fun _ _ => ?_
  exact discovers_validateComponents (fun _ => rfl) observes

def Document.FirstOf (site : Site) (key : Key) (doc : Document) : Prop :=
  doc.file = fileOf site key ∧ doc.revision = 1

theorem discovers_readDiscoveredDocument :
    Discovers observable (fun found => ∀ doc ∈ found, doc.FirstOf site key)
      (readDiscoveredDocument site (fileOf site key) pathInfo) := by
  have unreadable : ∀ operation err,
      ∀ doc ∈ some (newUnreadableDocument (fileOf site key) operation err),
        doc.FirstOf site key := by
    intro operation err doc present
    cases present
    exact ⟨rfl, rfl⟩
  unfold readDiscoveredDocument
  dsimp only
  refine .bind (Discovers.ask trivial) ?_
  intro opened _
  cases opened with
  | error =>
    refine .bind (Discovers.workspacePathMissing _ _) ?_
    intro gone _
    split
    · exact .pure nofun
    · exact .pure (unreadable _ _)
  | ok =>
    refine .bind (Discovers.ask trivial) ?_
    intro info _
    cases info with
    | error => exact .pure (unreadable _ _)
    | ok =>
      refine .bind (Discovers.ask trivial) ?_
      intro current _
      cases current with
      | error =>
        refine .bind (Discovers.workspacePathMissing _ _) ?_
        intro gone _
        split
        · exact .pure nofun
        · exact .pure (unreadable _ _)
      | ok =>
        dsimp only
        split
        · exact .pure nofun
        refine .bind (Discovers.ask trivial) ?_
        intro read _
        cases read with
        | error => exact .pure (unreadable _ _)
        | ok =>
          refine .bind Discovers.checkContext fun _ _ => Issues.pure ?_
          intro doc present
          cases present
          exact ⟨rfl, rfl⟩

structure DiscoveredDocument.Shape (site : Site) (explicit : Bool) (key : Key)
    (discovered : DiscoveredDocument) : Prop where
  first : ∀ doc ∈ discovered.document, doc.FirstOf site key
  clean : discovered.document ≠ none → explicit = false → hasExcluded (keyDir key) = false

theorem DiscoveredDocument.Shape.missing (directories : List Key) :
    (DiscoveredDocument.missing directories).Shape site explicit key :=
  ⟨nofun, fun found => absurd rfl found⟩

theorem discovers_discoverWorkspaceDocument (observes : AncestorsObserved observable explicit key) :
    Discovers observable (DiscoveredDocument.Shape site explicit key)
      (discoverWorkspaceDocument site watching explicit key) := by
  unfold discoverWorkspaceDocument
  refine .bind (Discovers.ask trivial) fun err _ => ?_
  refine .bind (Discovers.check err) fun _ _ => Discovers.closeAfter ?_
  unfold discoverWorkspaceDocumentRoot
  refine .bind Discovers.checkContext fun _ _ => ?_
  split
  · exact .pure (DiscoveredDocument.Shape.missing [])
  refine .bind (discovers_validateDocumentAncestors observes) ?_
  rintro ⟨directories, eligible⟩ clean
  dsimp only
  split
  · exact .pure (DiscoveredDocument.Shape.missing directories)
  rename_i isEligible
  refine .bind (Discovers.ask trivial) ?_
  intro answer _
  cases answer with
  | error =>
    refine .bind (Discovers.workspacePathMissing _ _) ?_
    intro gone _
    split
    · exact .pure (DiscoveredDocument.Shape.missing directories)
    · exact .throw _
  | ok =>
    dsimp only
    split
    · exact .pure (DiscoveredDocument.Shape.missing directories)
    rw [newFile_eq]
    refine .bind discovers_readDiscoveredDocument ?_
    intro doc first
    refine .pure ⟨first, fun _ implicit => clean ?_ implicit⟩
    simpa using isEligible

/-! ## The content of a subtree with its explicit paths -/

/-- Every document of the content was discovered or is an explicit selection. -/
structure WorkspaceContent.Reconciled (site : Site) (subtree : Key) (explicitPaths : List Key)
    (content : WorkspaceContent) : Prop where
  coherent : content.Coherent site
  below :
    ∀ key ∈ content.order,
      subtree <+: key ∧ (key ∈ explicitPaths ∨ hasExcluded (keyDir key) = false)

theorem discovers_reconcileExplicitPaths
    (reconciled : content.Reconciled site subtree explicitPaths)
    (selected : ∀ key ∈ remaining, key ∈ explicitPaths ∧ subtree <+: key)
    (observes : ∀ key ∈ explicitPaths, AncestorsObserved observable true key) :
    Discovers observable (WorkspaceContent.Reconciled site subtree explicitPaths)
      (reconcileExplicitPaths site watching remaining content) := by
  induction remaining generalizing content with
  | nil => exact .pure reconciled
  | cons key rest ih =>
    obtain ⟨isSelected, inSubtree⟩ := selected key mem_cons_self
    have selectedRest : ∀ other ∈ rest, other ∈ explicitPaths ∧ subtree <+: other :=
      fun other present => selected other (mem_cons_of_mem key present)
    unfold reconcileExplicitPaths
    split
    · exact ih reconciled selectedRest
    rename_i absent
    refine .bind (discovers_discoverWorkspaceDocument (observes key isSelected)) ?_
    intro discovered shape
    cases found : discovered.document with
    | none =>
      exact ih
        ⟨⟨reconciled.coherent.nodup, reconciled.coherent.keys,
          reconciled.coherent.fresh⟩, reconciled.below⟩ selectedRest
    | some doc =>
      obtain ⟨file, first⟩ := shape.first doc found
      have missing : key ∉ content.order := by
        intro present
        have inMap := (reconciled.coherent.keys key).mp present
        rw [← AList.lookup_isSome] at inMap
        exact absent inMap
      have coherent := reconciled.coherent.insert missing file first
      refine ih ⟨⟨coherent.nodup, coherent.keys, coherent.fresh⟩, ?_⟩ selectedRest
      intro other present
      rcases mem_append.mp present with before | last
      · exact reconciled.below other before
      · cases mem_singleton.mp last
        exact ⟨inSubtree, Or.inl isSelected⟩

theorem WorkspaceContent.Reconciled.sort
    (reconciled : content.Reconciled site subtree explicitPaths) :
    WorkspaceContent.Reconciled site subtree explicitPaths
      { content with order := sortKeys content.order } := by
  constructor
  · constructor
    · exact (perm_insertionSort _ content.order).nodup_iff.mpr reconciled.coherent.nodup
    · intro key
      exact mem_sortKeys.trans (reconciled.coherent.keys key)
    · exact reconciled.coherent.fresh
  · intro key present
    exact reconciled.below key (mem_sortKeys.mp present)

theorem discovers_reconcileContent {scope : Key} (within : scope <+: key)
    (selected : ∀ other ∈ explicitPaths, scope <+: other)
    (walks : ∀ dir, hasExcluded dir = false → observable dir)
    (observes : ∀ other ∈ explicitPaths, AncestorsObserved observable true other) :
    Discovers observable (WorkspaceContent.Reconciled site scope explicitPaths)
      (reconcileContent site watching fuel key explicitPaths) := by
  unfold reconcileContent
  refine .bind (discovers_loadWorkspaceSubtree walks) ?_
  intro content discovered
  have reconciled : content.Reconciled site scope explicitPaths :=
    ⟨discovered.coherent, fun other present =>
      ⟨within.trans (discovered.below other present).1,
        Or.inr (discovered.below other present).2⟩⟩
  refine .bind (discovers_reconcileExplicitPaths reconciled
    (fun other present => ⟨present, selected other present⟩) observes) ?_
  intro extended isReconciled
  exact .bind Discovers.checkContext fun _ _ => Issues.pure isReconciled.sort

end Ferretd.Documents

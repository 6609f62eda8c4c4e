import Ferretd.Documents.Static
import Ferretd.Documents.Shape

/-!
# What discovery finds in a tree

The loader finds exactly the eligible files below its start, and the discovery of one
document finds it exactly when it is eligible, or selectable for an explicit selection.
-/

namespace Ferretd.Documents

open Library Documents.Tree List

variable {start dir current : Key} {name : Name} {site : Site} {env : Environment} {tree : Tree}
  {faulty : Prop} {directories : List Key} {found : Found} {components : List Name}
/-! ## The walk -/

/-- The listed directories at or below a path can be listed. -/
def Environment.Reads (env : Environment) (tree : Tree) (start : Key) : Prop :=
  ∀ dir, start <+: dir → tree.listed dir = true →
    ∃ listing, env.readDir dir = .ok listing

/-- The files are the eligible ones at or below a path, and nothing on the way to them was
left out. -/
structure Found.Covers (site : Site) (env : Environment) (tree : Tree) (start : Key)
    (found : Found) : Prop where
  files :
    ∀ file, file ∈ found.files ↔
      ∃ key, file = fileOf site key ∧ start <+: key ∧ tree.eligible key = true
  reads : env.Reads tree start

theorem Tree.enters_of_eligible {ancestor key : Key} (isEligible : tree.eligible key = true)
    (below : ancestor <+: key) (different : ancestor ≠ key) : tree.enters ancestor = true := by
  obtain ⟨_, _, _, _, regular, _⟩ := eligible_cases isEligible
  exact (eligible_below (Tree.kind_of_above below different regular) below isEligible).1

theorem Tree.listed_below (below : start <+: dir) (isListed : tree.listed dir = true) :
    dir = start ∨ tree.enters start = true ∧ ∃ name, start ++ [name] <+: dir ∧
      tree.listed (start ++ [name]) = true := by
  obtain ⟨rest, rfl⟩ := below
  cases rest with
  | nil => exact .inl (by simp)
  | cons name others =>
    right
    rcases key_cases (name :: others) with impossible | ⟨middle, last, split⟩
    · cases impossible
    have shape : start ++ name :: others = (start ++ middle) ++ [last] := by
      rw [split, append_assoc]
    have entered : tree.enters (start ++ middle) = true := by
      rw [shape] at isListed
      exact (listed_concat.mp isListed).1
    refine ⟨Tree.enters_of_above (prefix_append _ _) entered, name, ⟨others, by simp⟩, ?_⟩
    cases middle with
    | nil =>
      simp only [nil_append, List.cons.injEq] at split
      rw [split.2] at isListed
      exact isListed
    | cons first remaining =>
      simp only [cons_append, List.cons.injEq] at split
      rw [split.1]
      exact listed_of_enters (Tree.enters_of_above ⟨remaining, by simp⟩ entered)

theorem Tree.listed_of_above (below : start <+: dir)
    (isListed : tree.listed dir = true) : tree.listed start = true := by
  rcases listed_below below isListed with rfl | ⟨entered, _⟩
  · exact isListed
  · exact listed_of_enters entered

theorem Environment.reads_unlisted (unlisted : tree.listed start = false) :
    env.Reads tree start := by
  intro dir below isListed
  rw [listed_of_above below isListed] at unlisted
  cases unlisted

theorem Found.covers_refused
    (outside : tree.enters start = false) (notFound : tree.eligible start = false)
    (reads : env.Reads tree start) :
    Found.Covers site env tree start ⟨[], directories⟩ := by
  refine ⟨?_, reads⟩
  intro file
  simp only [not_mem_nil, false_iff]
  rintro ⟨key, _, below, isEligible⟩
  by_cases same : start = key
  · rw [same, isEligible] at notFound
    cases notFound
  · rw [enters_of_eligible isEligible below same] at outside
    cases outside

theorem Found.covers_unlisted (unlisted : tree.listed start = false)
    (notFound : tree.eligible start = false) :
    Found.Covers site env tree start .none := by
  refine Found.covers_refused ?_ notFound (Environment.reads_unlisted unlisted)
  by_contra entered
  rw [Bool.not_eq_false] at entered
  rw [listed_of_enters entered] at unlisted
  cases unlisted

section Walk

variable {walkChild : Key → Code Found} {entry : DirEntry} {entries : List DirEntry}
  {bound fuel : Nat} {watching : Bool} (truthful : env.Truthful tree)
  (serves : ¬faulty → env.Serves tree)

include truthful serves in
theorem finds_visitEntry (entered : tree.enters dir = true)
    (known : tree.kind (dir ++ [entry.name]) = some entry.kind)
    (walks : tree.listed (dir ++ [entry.name]) = true →
      Finds site env tree faulty (Fault faulty) (Found.Covers site env tree (dir ++ [entry.name]))
        (walkChild (dir ++ [entry.name]))) :
    Finds site env tree faulty (Fault faulty)
      (Found.Covers site env tree (dir ++ [entry.name]))
      (visitEntry site walkChild dir entry) := by
  have isDirectory := Tree.enters_directory entered
  have unlisted : entry.kind ≠ .directory → tree.listed (dir ++ [entry.name]) = false := by
    intro other
    by_contra isListed
    rw [Bool.not_eq_false, listed_concat, known] at isListed
    exact other (Option.some.inj isListed.2.1)
  have notFound : entry.kind ≠ .regular ∨ isWorkspaceSource entry.name = false →
      tree.eligible (dir ++ [entry.name]) = false := by
    intro other
    by_contra isEligible
    rw [Bool.not_eq_false, Tree.eligible_concat, known] at isEligible
    rcases other with irregular | notSource
    · exact irregular (Option.some.inj isEligible.2.1)
    · rw [notSource] at isEligible
      cases isEligible.2.2
  unfold visitEntry
  dsimp only
  split
  next symlink =>
    exact .pure (Found.covers_unlisted (unlisted (by rw [symlink]; decide))
      (notFound (.inl (by rw [symlink]; decide))))
  split
  next directoryEntry =>
    split
    next excluded =>
      have barred : tree.listed (dir ++ [entry.name]) = false := by
        by_contra isListed
        rw [Bool.not_eq_false, listed_concat, excluded] at isListed
        cases isListed.2.2
      exact .pure (Found.covers_unlisted barred (notFound (.inl (by rw [directoryEntry]; decide))))
    next kept =>
      rw [directoryEntry] at known
      exact walks (listed_concat.mpr ⟨entered, known, by simpa using kept⟩)
  next notDirectory =>
    split
    next notSource =>
      exact .pure (Found.covers_unlisted (unlisted notDirectory)
        (notFound (.inr (by simpa using notSource))))
    rename_i source
    refine .bind (Finds.ask nofun fun _ => rfl) ?_
    rintro answer rfl
    cases inspected : env.lstat (dir ++ [entry.name]) with
    | error err =>
      have present := mem_of_kind known
      refine .throw (Finds.fault_of serves (truthful.lstat_present _ err present inspected) ?_)
      intro served
      obtain ⟨info, shown⟩ := served.lstat _ present
      rw [inspected] at shown
      cases shown
    | ok info =>
      have shown := truthful.lstat_shows dir entry.name info isDirectory inspected
      have sameKind : entry.kind = info.kind := by
        rw [Tree.kind, shown] at known
        exact (Option.some.inj known).symm
      dsimp only
      split
      next irregular =>
        rw [← sameKind] at irregular
        exact .pure (Found.covers_unlisted (unlisted notDirectory) (notFound (.inl irregular)))
      rename_i regular
      rw [← sameKind, not_not] at regular
      have isEligible : tree.eligible (dir ++ [entry.name]) = true :=
        Tree.eligible_concat.mpr ⟨entered, by rw [known, regular], by simpa using source⟩
      rw [newFile_eq]
      refine .pure ⟨?_, Environment.reads_unlisted (unlisted notDirectory)⟩
      intro file
      rw [mem_singleton]
      constructor
      · rintro rfl
        exact ⟨_, rfl, prefix_rfl, isEligible⟩
      rintro ⟨key, rfl, below, alsoEligible⟩
      by_cases same : dir ++ [entry.name] = key
      · rw [same]
      have inside := enters_of_eligible alsoEligible below same
      have isKind := Tree.enters_directory inside
      rw [known] at isKind
      exact absurd (Option.some.inj isKind) notDirectory

include truthful serves in
theorem finds_walkEntries (entered : tree.enters dir = true)
    (known : ∀ entry ∈ entries, tree.kind (dir ++ [entry.name]) = some entry.kind)
    (walks : ∀ child, tree.listed (dir ++ [child]) = true →
      Finds site env tree faulty (Fault faulty)
        (Found.Covers site env tree (dir ++ [child])) (walkChild (dir ++ [child]))) :
    Finds site env tree faulty (Fault faulty) (fun found =>
        (∀ file, file ∈ found.files ↔ ∃ entry ∈ entries, ∃ key, file = fileOf site key ∧
          dir ++ [entry.name] <+: key ∧ tree.eligible key = true) ∧
        ∀ entry ∈ entries, env.Reads tree (dir ++ [entry.name]))
      (walkEntries site walkChild dir entries) := by
  induction entries with
  | nil => exact .pure (by simp [Found.none])
  | cons entry _ ih =>
    have others := ih fun other present =>
      known other (mem_cons_of_mem entry present)
    refine .bind (Finds.context truthful serves) fun _ _ => ?_
    refine .bind (finds_visitEntry truthful serves entered
      (known entry mem_cons_self) (walks entry.name)) ?_
    intro found here
    refine .bind others ?_
    intro remaining there
    refine .pure ⟨?_, forall_mem_cons.mpr ⟨here.reads, there.2⟩⟩
    intro file
    simp only [Found.append, mem_append, here.files file, there.1 file, mem_cons]
    constructor
    · rintro (isHere | ⟨other, present, isThere⟩)
      · exact ⟨entry, .inl rfl, isHere⟩
      · exact ⟨other, .inr present, isThere⟩
    · rintro ⟨other, rfl | present, isOne⟩
      · exact .inl isOne
      · exact .inr ⟨other, present, isOne⟩

include truthful serves in
theorem finds_walk (within : tree.Within bound) (enough : bound ≤ dir.length + fuel)
    (isListed : tree.listed dir = true) :
    Finds site env tree faulty (Fault faulty) (Found.Covers site env tree dir)
      (walk site watching fuel dir (decide (dir = []))) := by
  induction fuel generalizing dir with
  | zero =>
    have short := within dir (mem_of_kind (listed_directory isListed))
    omega
  | succ fuel ih =>
    have isDirectory := listed_directory isListed
    have notFound : tree.eligible dir = false := by
      by_contra isEligible
      rw [Bool.not_eq_false] at isEligible
      obtain ⟨_, _, _, _, regular, _⟩ := eligible_cases isEligible
      rw [isDirectory] at regular
      cases regular
    unfold walk
    refine .bind (Finds.context truthful serves) fun _ _ => ?_
    refine .bind (Finds.ask (by simp) fun _ => rfl) ?_
    rintro answer rfl
    cases read : env.readDir dir with
    | error err =>
      have fault : Fault faulty err := by
        refine Finds.fault_of serves (truthful.readDir_present dir err isDirectory read) ?_
        intro served
        obtain ⟨listing, listed⟩ := served.readDir dir isListed
        rw [read] at listed
        cases listed
      dsimp only
      split
      · exact .throw fault
      rename_i nested
      rcases key_cases dir with rfl | ⟨parent, name, rfl⟩
      · simp at nested
      refine .bind (Finds.workspacePathMissing truthful
        (Tree.kind_parent isDirectory) fun _ => fault.2) ?_
      rintro missing ⟨absent, _⟩
      split
      next gone => exact absurd (mem_of_kind isDirectory) (absent gone)
      · exact .throw fault
    | ok listing =>
      have lists := truthful.readDir_lists dir listing isDirectory read
      dsimp only
      refine .bind (Finds.observe truthful serves isDirectory) ?_
      intro err reported
      split
      next failing =>
        have fault := reported failing
        split
        next missing =>
          simp only [Bool.and_eq_true] at missing
          rw [fault.2] at missing
          cases missing.2
        · exact .throw fault
      · split
        next nestedModule =>
          rw [Bool.and_eq_true, Bool.not_eq_true', decide_eq_false_iff_not] at nestedModule
          have outside : tree.enters dir = false := by
            by_contra entered
            rw [Bool.not_eq_false, enters_iff_listed nestedModule.1,
              ← lists.containsGoModule, nestedModule.2] at entered
            cases entered.2
          refine .pure (Found.covers_refused outside notFound ?_)
          intro other below otherListed
          rcases listed_below below otherListed with rfl | ⟨entered, _⟩
          · exact ⟨listing, read⟩
          · rw [entered] at outside
            cases outside
        next ordinary =>
          have entered : tree.enters dir = true := by
            by_cases root : dir = []
            · rw [root]
              rfl
            rw [enters_iff_listed root]
            refine ⟨isListed, ?_⟩
            rw [← lists.containsGoModule]
            simpa [root] using ordinary
          have walks : ∀ child, tree.listed (dir ++ [child]) = true →
              Finds site env tree faulty (Fault faulty)
                (Found.Covers site env tree (dir ++ [child]))
                (walk site watching fuel (dir ++ [child]) false) := by
            intro child childListed
            have nested : decide (dir ++ [child] = []) = false := by simp
            rw [← nested]
            refine ih ?_ childListed
            rw [length_append, length_singleton]
            omega
          have known : ∀ entry ∈ listing.entries,
              tree.kind (dir ++ [entry.name]) = some entry.kind :=
            fun entry present => (lists entry.name entry.kind).mp present
          refine .bind (finds_walkEntries truthful serves entered known walks) ?_
          rintro found ⟨members, reads⟩
          refine .pure ⟨?_, ?_⟩
          · intro file
            simp only [Found.append, nil_append, members file]
            constructor
            · rintro ⟨entry, _, key, rfl, below, isEligible⟩
              exact ⟨key, rfl, (prefix_append _ _).trans below, isEligible⟩
            rintro ⟨key, rfl, below, isEligible⟩
            obtain ⟨_, name, under, _⟩ :=
              eligible_below isDirectory below isEligible
            obtain ⟨_, _, _, _, regular, _⟩ := eligible_cases isEligible
            have present : dir ++ [name] ∈ tree.nodes := by
              by_cases same : dir ++ [name] = key
              · rw [same]
                exact mem_of_kind regular
              · exact mem_of_kind (Tree.kind_of_above under same regular)
            obtain ⟨kind, isKind⟩ := kind_of_mem present
            exact ⟨⟨name, kind⟩, (lists name kind).mpr isKind, key, rfl, under, isEligible⟩
          · intro other below otherListed
            rcases listed_below below otherListed with
              rfl | ⟨_, name, under, childListed⟩
            · exact ⟨listing, read⟩
            · have isKind := listed_directory childListed
              exact reads ⟨name, .directory⟩ ((lists _ _).mpr isKind) other under otherListed

end Walk

/-! ## Loading -/

def loadedDocument (site : Site) (env : Environment) (key : Key) : Document :=
  match env.readFile key with
  | .error err => newUnreadableDocument (fileOf site key) .read err
  | .ok bytes => newDocument site (fileOf site key) bytes

def loadedFrom (site : Site) (env : Environment) (tree : Tree) (start key : Key) :
    Option Document :=
  if workspacePathInSubtree key start && tree.eligible key then
    some (loadedDocument site env key)
  else
    none

/-- The content has the eligible files at or below a path, as the loader reads them. -/
structure WorkspaceContent.Shows (site : Site) (env : Environment) (tree : Tree)
    (start : Key) (content : WorkspaceContent) : Prop where
  documents : ∀ key, content.documents.lookup key = loadedFrom site env tree start key
  reads : env.Reads tree start

theorem Found.Covers.files_eq (covers : found.Covers site env tree start) :
    found.files = (found.files.map File.relativePath).map (fileOf site) := by
  rw [map_map]
  refine (map_id found.files).symm.trans (map_congr_left ?_)
  intro file present
  obtain ⟨key, rfl, _⟩ := (covers.files file).mp present
  rfl

theorem Found.Covers.mem_keys (covers : found.Covers site env tree start) (key : Key) :
    key ∈ found.files.map File.relativePath ↔ start <+: key ∧ tree.eligible key = true := by
  rw [mem_map]
  constructor
  · rintro ⟨file, present, rfl⟩
    obtain ⟨key, rfl, below, isEligible⟩ := (covers.files file).mp present
    exact ⟨below, isEligible⟩
  · rintro ⟨below, isEligible⟩
    exact ⟨fileOf site key, (covers.files _).mpr ⟨key, rfl, below, isEligible⟩, rfl⟩

section Load

variable {content : WorkspaceContent} {err : GoError} {key : Key} (truthful : env.Truthful tree)
  (serves : ¬faulty → env.Serves tree) {Value : Type}

include truthful serves in
theorem finds_readFiles {keys : List Key} :
    Finds site env tree faulty (Fault faulty)
      (fun result => ∀ key, result.documents.lookup key =
        if key ∈ keys then
          some (loadedDocument site env key)
        else
          content.documents.lookup key)
      (readFiles site (keys.map (fileOf site)) content) := by
  induction keys generalizing content with
  | nil => exact .pure (by simp)
  | cons key rest ih =>
    have reads : Finds site env tree faulty (Fault faulty)
        (fun doc => doc = loadedDocument site env key)
        (readDocument site (fileOf site key)) := by
      unfold readDocument
      refine .bind (Finds.ask nofun fun _ => rfl) ?_
      rintro answer rfl
      unfold loadedDocument
      dsimp only [fileOf]
      cases env.readFile key with
      | error => exact .pure rfl
      | ok => exact .bind (Finds.context truthful serves) fun _ _ => Finds.pure rfl
    rw [map_cons]
    refine .bind (Finds.context truthful serves) fun _ _ => ?_
    refine .bind reads ?_
    rintro doc rfl
    refine .mono ih ?_ fun _ fault => fault
    intro result shows other
    rw [shows other]
    by_cases later : other ∈ rest
    · simp [later]
    by_cases same : other = key
    · subst same
      simp [later, fileOf]
    · simp [later, same, fileOf]

include truthful serves in
theorem finds_loadWorkspaceTree {watching : Bool} {bound fuel : Nat}
    (within : tree.Within bound) (enough : bound ≤ fuel) (isListed : tree.listed start = true) :
    Finds site env tree faulty (Fault faulty)
      (WorkspaceContent.Shows site env tree start)
      (loadWorkspaceTree site watching fuel start) := by
  have discovers : Finds site env tree faulty (Fault faulty)
      (Found.Covers site env tree start) (discoverFiles site watching fuel start) := by
    unfold discoverFiles
    dsimp only
    split
    next excluded =>
      rcases key_cases start with rfl | ⟨parent, name, rfl⟩
      · simp at excluded
      · have kept := (listed_concat.mp isListed).2.2
        simp [keyBase, kept] at excluded
    · refine .bind (finds_walk truthful serves within (by omega) isListed) ?_
      intro found covers
      refine .pure ⟨?_, covers.reads⟩
      intro file
      rw [← covers.files file]
      exact (perm_insertionSort _ found.files).mem_iff
  unfold loadWorkspaceTree
  refine .bind discovers ?_
  intro found covers
  rw [covers.files_eq]
  refine .mono (finds_readFiles truthful serves) ?_ fun _ fault => fault
  intro content shows
  refine ⟨?_, covers.reads⟩
  intro key
  rw [shows key]
  refine if_congr ?_ rfl rfl
  rw [covers.mem_keys key, Bool.and_eq_true, workspacePathInSubtree_iff]

theorem Finds.closeAfter {ok : Value → Prop} {code : Code Value}
    (serves : ¬faulty → env.Serves tree)
    (found : Finds site env tree faulty (fun _ => faulty) ok code) :
    Finds site env tree faulty (fun _ => faulty) ok (Documents.closeAfter code) := by
  unfold Documents.closeAfter
  refine .bind (Finds.attempt found) ?_
  rintro result ⟨returned, reported⟩
  refine .bind (Finds.ask nofun fun _ => rfl) ?_
  rintro closeErr rfl
  cases result with
  | error err => exact .throw (reported err rfl)
  | ok value =>
    refine .bind (Finds.check ?_) fun _ _ => Finds.pure (returned value rfl)
    intro failing
    by_contra sound
    exact failing (serves sound).closeRoot

theorem Finds.rooted {ok : Value → Prop} {code : Code Value} (serves : ¬faulty → env.Serves tree)
    (found : Finds site env tree faulty (fun _ => faulty) ok code) :
    Finds site env tree faulty (fun _ => faulty) ok (do
      Documents.check (← Documents.ask .openRoot)
      code) := by
  refine .bind (Finds.ask nofun fun _ => rfl) ?_
  rintro err rfl
  refine .bind (Finds.check ?_) fun _ _ => found
  intro failing
  by_contra sound
  exact failing (serves sound).openRoot

include truthful serves in
theorem finds_loadWorkspace {watching : Bool} {bound fuel : Nat} (within : tree.Within bound)
    (enough : bound ≤ fuel) :
    Finds site env tree faulty (fun _ => faulty)
      (WorkspaceContent.Shows site env tree [])
      (loadWorkspace site watching fuel) := by
  unfold loadWorkspace
  refine .rooted serves ?_
  refine .closeAfter serves (Finds.mono (finds_loadWorkspaceTree truthful serves within
    enough rfl) (fun _ shows => shows) ?_)
  intro err fault
  exact fault.1

include truthful serves in
theorem finds_missing {ok : Value → Prop}
    {value : Value} (isDirectory : tree.kind dir = some .directory)
    (inspected : env.lstat (dir ++ [name]) = .error err)
    (holds : dir ++ [name] ∉ tree.nodes → ok value) :
    Finds site env tree faulty (fun _ => faulty) ok (do
      if ← workspacePathMissing (dir ++ [name]) err then
        return value
      else
        throw err) := by
  refine .bind (Finds.workspacePathMissing truthful isDirectory
    fun present => truthful.lstat_present _ err present inspected) ?_
  rintro missing ⟨absent, told⟩
  split
  next gone => exact .pure (holds (absent gone))
  rename_i kept
  refine .throw ?_
  by_contra sound
  by_cases present : dir ++ [name] ∈ tree.nodes
  · obtain ⟨info, shown⟩ := (serves sound).lstat _ present
    rw [inspected] at shown
    cases shown
  obtain ⟨reported, same, only⟩ :=
    (serves sound).lstat_missing dir name isDirectory present
  rw [inspected] at same
  cases same
  exact kept (told only)

include truthful serves in
theorem finds_unlisted {ok : Value → Prop}
    {value : Value} (isListed : tree.listed (dir ++ [name]) = true)
    (read : env.readDir (dir ++ [name]) = .error err) :
    Finds site env tree faulty (fun _ => faulty) ok (do
      if ← workspacePathMissing (dir ++ [name]) err then
        return value
      else
        throw err) := by
  have isDirectory := listed_directory isListed
  refine .bind (Finds.workspacePathMissing truthful (Tree.kind_parent isDirectory)
    fun _ => truthful.readDir_present _ err isDirectory read) ?_
  rintro missing ⟨absent, _⟩
  split
  next gone => exact absurd (mem_of_kind isDirectory) (absent gone)
  refine .throw ?_
  by_contra sound
  obtain ⟨listing, listed⟩ := (serves sound).readDir _ isListed
  rw [read] at listed
  cases listed

theorem Tree.listed_append_cons {component : Name} {rest : Key}
    (isListed : tree.listed (current ++ component :: rest) = true) :
    tree.kind (current ++ [component]) = some .directory ∧
      isExcludedDirectory component = false ∧
        (rest ≠ [] → tree.isModule (current ++ [component]) = false) := by
  rcases key_cases rest with rfl | ⟨middle, name, rfl⟩
  · obtain ⟨_, isDirectory, kept⟩ := listed_concat.mp isListed
    exact ⟨isDirectory, kept, fun proper => absurd rfl proper⟩
  have split : current ++ component :: (middle ++ [name]) =
      (current ++ [component] ++ middle) ++ [name] := by simp
  rw [split] at isListed
  have entered := Tree.enters_of_above (prefix_append (current ++ [component]) middle)
    (listed_concat.mp isListed).1
  rw [enters_concat, Bool.and_eq_true, passes_iff] at entered
  exact ⟨entered.2.1, entered.2.2.1, fun _ => entered.2.2.2⟩

include truthful serves in
theorem finds_validateWorkspaceDirectory
    (entered : tree.enters current = true) (proper : components ≠ []) :
    Finds site env tree faulty (fun _ => faulty)
      (fun eligible => eligible = tree.listed (current ++ components))
      (validateWorkspaceDirectory current components) := by
  induction components generalizing current with
  | nil => exact absurd rfl proper
  | cons component rest ih =>
    have isDirectory := Tree.enters_directory entered
    have refused : (tree.kind (current ++ [component]) = some .directory →
        isExcludedDirectory component = false →
          rest ≠ [] ∧ tree.isModule (current ++ [component]) = true) →
        false = tree.listed (current ++ component :: rest) := by
      intro barred
      by_contra differs
      have isListed : tree.listed (current ++ component :: rest) = true := by
        simpa using differs
      obtain ⟨dir, kept, open_⟩ := listed_append_cons isListed
      obtain ⟨deeper, isModule⟩ := barred dir kept
      rw [open_ deeper] at isModule
      cases isModule
    unfold validateWorkspaceDirectory
    dsimp only
    split
    next excluded =>
      refine .pure (refused ?_)
      intro _ kept
      rw [excluded] at kept
      cases kept
    next kept =>
      rw [Bool.not_eq_true] at kept
      refine .bind (Finds.ask (by simp) fun _ => rfl) ?_
      rintro answer rfl
      cases inspected : env.lstat (current ++ [component]) with
      | error =>
        refine finds_missing truthful serves isDirectory inspected ?_
        intro absent
        refine refused ?_
        intro dir
        exact absurd (mem_of_kind dir) absent
      | ok info =>
        have shown := truthful.lstat_shows current component info isDirectory inspected
        have isKind : tree.kind (current ++ [component]) = some info.kind := by
          rw [Tree.kind, shown]
          rfl
        dsimp only
        split
        next other =>
          refine .pure (refused ?_)
          intro dir
          rw [isKind] at dir
          exact absurd (Option.some.inj dir) other
        next dir =>
          rw [not_not] at dir
          rw [dir] at isKind
          have isListed : tree.listed (current ++ [component]) = true :=
            listed_concat.mpr ⟨entered, isKind, kept⟩
          split
          next last =>
            rw [isEmpty_iff.mp last]
            exact .pure isListed.symm
          rename_i more
          have deeper : rest ≠ [] := fun none => more (by rw [none]; rfl)
          refine .bind (Finds.ask (by simp) fun _ => rfl) ?_
          rintro answer rfl
          cases read : env.readDir (current ++ [component]) with
          | error => exact finds_unlisted truthful serves isListed read
          | ok listing =>
            have lists := truthful.readDir_lists _ listing isKind read
            dsimp only
            rw [lists.containsGoModule]
            split
            next isModule =>
              exact .pure (refused fun _ _ => ⟨deeper, isModule⟩)
            rename_i open_
            rw [Bool.not_eq_true] at open_
            have enteredNext : tree.enters (current ++ [component]) = true := by
              rw [enters_concat, Bool.and_eq_true, passes_iff]
              exact ⟨entered, isKind, kept, open_⟩
            have tail := ih enteredNext deeper
            rw [append_assoc] at tail
            exact tail

include truthful serves in
theorem finds_loadWorkspaceSubtree {watching : Bool} {bound fuel : Nat}
    (within : tree.Within bound) (enough : bound ≤ fuel) :
    Finds site env tree faulty (fun _ => faulty)
      (fun content => tree.eligible key = false → content.Shows site env tree key)
      (loadWorkspaceSubtree site watching fuel key) := by
  have load : tree.listed key = true → Finds site env tree faulty (fun _ => faulty)
      (fun content => tree.eligible key = false → content.Shows site env tree key)
      (closeAfter (loadEligibleSubtree site watching fuel key)) := by
    intro isListed
    refine .closeAfter serves ?_
    unfold loadEligibleSubtree
    refine .bind (Finds.attempt (finds_loadWorkspaceTree truthful serves within enough isListed)) ?_
    rintro result ⟨returned, reported⟩
    cases result with
    | ok content => exact .pure fun _ => returned content rfl
    | error err =>
      have fault := reported err rfl
      dsimp only
      split
      next missing =>
        rw [fault.2] at missing
        cases missing.2
      · exact .throw fault.1
  unfold loadWorkspaceSubtree
  refine .rooted serves ?_
  split
  next root => exact load (by rw [root]; rfl)
  rename_i proper
  refine .bind (Finds.attempt (finds_validateWorkspaceDirectory truthful serves
    enters_root proper)) ?_
  rintro result ⟨returned, reported⟩
  cases result with
  | error err =>
    exact .bind (Finds.ask nofun fun _ => rfl) fun _ _ =>
      Finds.throw (reported err rfl)
  | ok eligible =>
    have decided := returned eligible rfl
    rw [nil_append] at decided
    cases eligible with
    | true => exact load decided.symm
    | false =>
      refine .bind (Finds.ask nofun fun _ => rfl) ?_
      rintro closeErr rfl
      refine .bind (Finds.check ?_) fun _ _ =>
        Finds.pure fun notSource => ⟨?_, Environment.reads_unlisted decided.symm⟩
      · intro failing
        by_contra sound
        exact failing (serves sound).closeRoot
      intro other
      have nothing : ¬(workspacePathInSubtree other key && tree.eligible other) = true := by
        rw [Bool.and_eq_true, workspacePathInSubtree_iff]
        rintro ⟨below, isEligible⟩
        by_cases same : key = other
        · rw [same, isEligible] at notSource
          cases notSource
        · have entered := enters_of_eligible isEligible below same
          rw [listed_of_enters entered] at decided
          cases decided
      rw [loadedFrom, if_neg nothing]
      rfl

end Load

/-! ## One document -/

def inspectedDocument (site : Site) (env : Environment) (key : Key) : Document :=
  match env.openFile key with
  | .error err => newUnreadableDocument (fileOf site key) .open_ err
  | .ok handle =>
    match env.handleInfo handle with
    | .error err => newUnreadableDocument (fileOf site key) .inspectOpen err
    | .ok _ =>
      match env.readAll handle with
      | .error err => newUnreadableDocument (fileOf site key) .read err
      | .ok bytes => newDocument site (fileOf site key) bytes

def foundDocument (site : Site) (env : Environment) (found : Bool) (key : Key) :
    Option Document :=
  if found then some (inspectedDocument site env key) else none

namespace Tree

/-- The ancestors of a document are accepted up to this directory. -/
def reaches (tree : Tree) (explicit : Bool) (dir : Key) : Bool :=
  if explicit then decide (tree.kind dir = some .directory) else tree.enters dir

def finds (tree : Tree) (explicit : Bool) (key : Key) : Bool :=
  if explicit then tree.selectable key else tree.eligible key

variable {explicit : Bool}

theorem reaches_directory (reached : tree.reaches explicit dir = true) :
    tree.kind dir = some .directory := by
  unfold reaches at reached
  split at reached
  · exact of_decide_eq_true reached
  · exact enters_directory reached

theorem reaches_of_above {key : Key} (below : dir <+: key)
    (reached : tree.reaches explicit key = true) : tree.reaches explicit dir = true := by
  by_cases same : dir = key
  · rw [same]
    exact reached
  have isDirectory := kind_of_above below same (reaches_directory reached)
  unfold reaches at reached ⊢
  split
  · exact decide_eq_true isDirectory
  next implicit =>
    rw [if_neg implicit] at reached
    exact enters_of_above below reached

theorem finds_iff :
    tree.finds explicit (dir ++ [name]) = true ↔
      tree.reaches explicit dir = true ∧
        tree.kind (dir ++ [name]) = some .regular ∧ isWorkspaceSource name = true := by
  unfold finds reaches
  split
  · rw [selectable, isSourceKey_concat, Bool.and_eq_true, decide_eq_true_eq, decide_eq_true_eq]
    exact ⟨fun holds => ⟨kind_parent holds.1, holds⟩, fun holds => holds.2⟩
  · exact eligible_concat

end Tree

section Document

variable {pathInfo : FileInfo} (truthful : env.Truthful tree) (serves : ¬faulty → env.Serves tree)

include truthful serves in
theorem finds_validateComponents {watching explicit : Bool}
    (reached : tree.reaches explicit current = true) :
    Finds site env tree faulty (fun _ => faulty)
      (fun result => result.2 = tree.reaches explicit (current ++ components))
      (validateComponents watching explicit current directories components) := by
  induction components generalizing current directories with
  | nil =>
    rw [append_nil]
    exact .pure reached.symm
  | cons component rest ih =>
    have isDirectory := Tree.reaches_directory reached
    have refused : tree.reaches explicit (current ++ [component]) = false →
        false = tree.reaches explicit (current ++ component :: rest) := by
      intro barred
      by_contra differs
      have further : tree.reaches explicit (current ++ component :: rest) = true := by
        simpa using differs
      rw [Tree.reaches_of_above ⟨rest, by simp⟩ further] at barred
      cases barred
    have notDirectory : tree.kind (current ++ [component]) ≠ some .directory →
        tree.reaches explicit (current ++ [component]) = false := by
      intro other
      by_contra isReached
      rw [Bool.not_eq_false] at isReached
      exact other (Tree.reaches_directory isReached)
    have continues : ∀ passed, tree.reaches explicit (current ++ [component]) = true →
        Finds site env tree faulty (fun _ => faulty)
          (fun result => result.2 = tree.reaches explicit (current ++ component :: rest))
          (validateComponents watching explicit (current ++ [component]) passed rest) := by
      intro passed next
      have tail : Finds site env tree faulty (fun _ => faulty)
          (fun result => result.2 = tree.reaches explicit (current ++ [component] ++ rest))
          (validateComponents watching explicit (current ++ [component]) passed rest) :=
        ih next
      rw [append_assoc] at tail
      exact tail
    unfold validateComponents
    dsimp only
    refine .bind (Finds.mono (Finds.context truthful serves) (fun _ _ => trivial)
      fun _ fault => fault.1) fun _ (_ : True) => ?_
    split
    next excluded =>
      rw [Bool.and_eq_true, Bool.not_eq_true'] at excluded
      refine .pure (refused ?_)
      rw [excluded.1, Tree.reaches, if_neg (by decide), enters_concat, Bool.and_eq_false_iff]
      right
      simp [passes, excluded.2]
    next admitted =>
      refine .bind (Finds.ask (by simp) fun _ => rfl) ?_
      rintro answer rfl
      cases inspected : env.lstat (current ++ [component]) with
      | error =>
        refine finds_missing truthful serves isDirectory inspected ?_
        intro absent
        refine refused (notDirectory ?_)
        intro dir
        exact absent (mem_of_kind dir)
      | ok info =>
        have shown := truthful.lstat_shows current component info isDirectory inspected
        have isKind : tree.kind (current ++ [component]) = some info.kind := by
          rw [Tree.kind, shown]
          rfl
        dsimp only
        split
        next other =>
          refine .pure (refused (notDirectory ?_))
          rw [isKind]
          intro dir
          exact other (Option.some.inj dir)
        next dir =>
          rw [not_not] at dir
          rw [dir] at isKind
          refine .bind (Finds.observe truthful serves isKind) ?_
          intro err reported
          split
          next failing =>
            have fault := reported failing
            split
            next missing =>
              rw [fault.2] at missing
              cases missing
            · exact .throw fault.1
          · split
            next isExplicit =>
              refine continues _ ?_
              rw [Tree.reaches, if_pos isExplicit]
              exact decide_eq_true isKind
            next implicit =>
              have kept : isExcludedDirectory component = false := by
                simpa [implicit] using admitted
              have entered : tree.enters current = true := by
                rw [Tree.reaches, if_neg implicit] at reached
                exact reached
              have isListed : tree.listed (current ++ [component]) = true :=
                listed_concat.mpr ⟨entered, isKind, kept⟩
              refine .bind (Finds.ask (by simp) fun _ => rfl) ?_
              rintro answer rfl
              cases read : env.readDir (current ++ [component]) with
              | error => exact finds_unlisted truthful serves isListed read
              | ok listing =>
                have lists := truthful.readDir_lists _ listing isKind read
                have enters : tree.reaches explicit (current ++ [component]) =
                    !tree.isModule (current ++ [component]) := by
                  rw [Tree.reaches, if_neg implicit, enters_concat, entered, passes, isKind, kept]
                  simp
                dsimp only
                rw [lists.containsGoModule]
                split
                next isModule =>
                  exact .pure (refused (by rw [enters, isModule]; rfl))
                next open_ =>
                  rw [Bool.not_eq_true] at open_
                  exact continues _ (by rw [enters, open_]; rfl)

include truthful in
theorem finds_readDiscoveredDocument (serves : ¬faulty → env.Serves tree)
    (regular : tree.kind (dir ++ [name]) = some .regular)
    (inspected : env.lstat (dir ++ [name]) = .ok pathInfo) :
    Finds site env tree faulty (fun _ => faulty)
      (fun doc => doc = some (inspectedDocument site env (dir ++ [name])))
      (readDiscoveredDocument site (fileOf site (dir ++ [name])) pathInfo) := by
  have isDirectory := Tree.kind_parent regular
  have present := mem_of_kind regular
  have shown := truthful.lstat_shows dir name pathInfo isDirectory inspected
  have isRegular : pathInfo.kind = .regular := by
    rw [Tree.kind, shown] at regular
    exact Option.some.inj regular
  unfold readDiscoveredDocument
  have sameKey : (fileOf site (dir ++ [name])).relativePath = dir ++ [name] := rfl
  rw [sameKey]
  dsimp only
  refine .bind (Finds.ask (by simp) fun _ => rfl) ?_
  rintro answer rfl
  cases opened : env.openFile (dir ++ [name]) with
  | error err =>
    refine .bind (Finds.workspacePathMissing truthful isDirectory
      fun _ => truthful.open_present _ err present opened) ?_
    rintro missing ⟨absent, _⟩
    split
    next gone => exact absurd present (absent gone)
    · exact .pure (by simp [inspectedDocument, opened])
  | ok handle =>
    refine .bind (Finds.ask (by simp) fun _ => rfl) ?_
    rintro answer rfl
    cases informed : env.handleInfo handle with
    | error => exact .pure (by simp [inspectedDocument, opened, informed])
    | ok openedInfo =>
      have sameInfo : openedInfo = pathInfo := by
        have located := truthful.handle_shows _ handle openedInfo present opened informed
        rw [shown] at located
        exact (Option.some.inj located).symm
      refine .bind (Finds.ask (by simp) fun _ => rfl) ?_
      rintro answer rfl
      rw [inspected, sameInfo]
      dsimp only
      split
      next differs => simp [isRegular] at differs
      refine .bind (Finds.ask (by simp) fun _ => rfl) ?_
      rintro answer rfl
      cases read : env.readAll handle with
      | error => exact .pure (by simp [inspectedDocument, opened, informed, read])
      | ok =>
        exact .bind (Finds.mono (Finds.context truthful serves)
          (fun _ _ => trivial) fun _ fault => fault.1) fun _ (_ : True) =>
            Finds.pure (by simp [inspectedDocument, opened, informed, read])

include truthful serves in
theorem finds_discoverWorkspaceDocument {watching explicit : Bool} (key : Key) :
    Finds site env tree faulty (fun _ => faulty)
      (fun discovered => discovered.document =
        foundDocument site env (tree.finds explicit key) key)
      (discoverWorkspaceDocument site watching explicit key) := by
  have lost : ∀ {found : Bool}, found = false →
      (none : Option Document) = foundDocument site env found key := by
    rintro _ rfl
    rfl
  unfold discoverWorkspaceDocument
  refine .rooted serves (Finds.closeAfter serves ?_)
  unfold discoverWorkspaceDocumentRoot
  refine .bind (Finds.mono (Finds.context truthful serves) (fun _ _ => trivial)
    fun _ fault => fault.1) fun _ (_ : True) => ?_
  split
  next notSource =>
    refine .pure (lost ?_)
    rw [Bool.not_eq_true'] at notSource
    unfold Tree.finds Tree.selectable Tree.eligible
    rw [notSource]
    simp
  next source =>
    rcases key_cases key with rfl | ⟨dir, name, rfl⟩
    · simp [isSourceKey, keyBase] at source
    have parent : keyDir (dir ++ [name]) = dir := by simp [keyDir]
    rw [isSourceKey_concat, Bool.not_eq_true', Bool.not_eq_false] at source
    have ancestors : Finds site env tree faulty (fun _ => faulty)
        (fun result => result.2 = tree.reaches explicit dir)
        (validateDocumentAncestors watching explicit (dir ++ [name])) := by
      unfold validateDocumentAncestors
      rw [parent]
      refine .bind (Finds.observe truthful serves Tree.kind_root) ?_
      intro err reported
      refine .bind (Finds.check fun failing => (reported failing).1) fun _ _ => ?_
      have root : tree.reaches explicit [] = true := by
        unfold Tree.reaches
        split
        · exact decide_eq_true Tree.kind_root
        · rfl
      exact .mono (finds_validateComponents truthful serves root)
        (fun _ decided => decided) fun _ fault => fault
    refine .bind ancestors ?_
    rintro ⟨directories, eligible⟩ decided
    dsimp only at decided ⊢
    subst decided
    split
    next refused =>
      refine .pure (lost ?_)
      rw [Bool.not_eq_true'] at refused
      by_contra isFound
      rw [Bool.not_eq_false, Tree.finds_iff, refused] at isFound
      cases isFound.1
    next accepted =>
      rw [Bool.not_eq_true', Bool.not_eq_false] at accepted
      have isDirectory := Tree.reaches_directory accepted
      have irregular : tree.kind (dir ++ [name]) ≠ some .regular →
          tree.finds explicit (dir ++ [name]) = false := by
        intro other
        by_contra isFound
        rw [Bool.not_eq_false, Tree.finds_iff] at isFound
        exact other isFound.2.1
      refine .bind (Finds.ask (by simp) fun _ => rfl) ?_
      rintro answer rfl
      cases inspected : env.lstat (dir ++ [name]) with
      | error =>
        refine finds_missing truthful serves isDirectory inspected ?_
        intro absent
        exact lost (irregular fun regular => absent (mem_of_kind regular))
      | ok pathInfo =>
        have shown := truthful.lstat_shows dir name pathInfo isDirectory inspected
        have isKind : tree.kind (dir ++ [name]) = some pathInfo.kind := by
          rw [Tree.kind, shown]
          rfl
        dsimp only
        split
        next other =>
          refine .pure (lost (irregular ?_))
          rw [isKind]
          intro regular
          exact other (Option.some.inj regular)
        next regular =>
          rw [not_not] at regular
          rw [regular] at isKind
          rw [newFile_eq]
          refine .bind (finds_readDiscoveredDocument truthful serves isKind inspected) ?_
          rintro doc rfl
          refine .pure ?_
          rw [Tree.finds_iff.mpr ⟨accepted, isKind, source⟩]
          rfl

end Document

end Ferretd.Documents

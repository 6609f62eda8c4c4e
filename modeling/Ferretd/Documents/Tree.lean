import Ferretd.Documents.Operations

/-!
# File trees

A finite file system below the workspace root, what discovery finds in it, and the
answers that it gives when nothing fails.
-/

namespace Ferretd.Documents

open List

inductive Node where
  | directory (identity : Identity)
  | regular (identity : Identity) (content : Content)
  | symlink (identity : Identity)
  | other (identity : Identity)
deriving DecidableEq

def Node.isDirectory : Node → Bool
  | .directory _ => true
  | _ => false

def Node.info : Node → FileInfo
  | .directory identity => ⟨.directory, identity⟩
  | .regular identity _ => ⟨.regular, identity⟩
  | .symlink identity => ⟨.symlink, identity⟩
  | .other identity => ⟨.other, identity⟩

/-- A tree of files: the root and everything that contains something is a directory. -/
structure Tree where
  nodes : AList fun _ : Key => Node
  root : ∃ identity, nodes.lookup [] = some (.directory identity)
  parents :
    ∀ key name, key ++ [name] ∈ nodes → ∃ identity, nodes.lookup key = some (.directory identity)

namespace Tree

theorem directory_of_any {found : Option Node} (isDirectory : found.any Node.isDirectory = true) :
    ∃ identity, found = some (.directory identity) := by
  cases found with
  | none => cases isDirectory
  | some node =>
    cases node with
    | directory identity => exact ⟨identity, rfl⟩
    | _ => cases isDirectory

/-- A tree from its nodes, which are closed under directories. -/
def ofNodes (nodes : AList fun _ : Key => Node)
    (root : (nodes.lookup []).any Node.isDirectory = true)
    (closed : ∀ key ∈ nodes.keys, key ≠ [] →
      (nodes.lookup (keyDir key)).any Node.isDirectory = true) : Tree where
  nodes := nodes
  root := directory_of_any root
  parents := by
    intro key name present
    have parent : keyDir (key ++ [name]) = key := by simp [keyDir]
    have dir := closed _ present (by simp)
    rw [parent] at dir
    exact directory_of_any dir

variable (tree : Tree) {ancestor : Key}

def info (key : Key) : Option FileInfo :=
  (tree.nodes.lookup key).map Node.info

def kind (key : Key) : Option Kind :=
  (tree.info key).map FileInfo.kind

/-- The directory is the root of a nested module. -/
def isModule (dir : Key) : Bool :=
  decide (tree.kind (dir ++ [goMod]) = some .regular) ||
    decide (tree.kind (dir ++ [goMod]) = some .other)

/-- Discovery goes on into a child of a directory. -/
def passes (dir : Key) (name : Name) : Bool :=
  decide (tree.kind (dir ++ [name]) = some .directory) && !isExcludedDirectory name &&
    !tree.isModule (dir ++ [name])

def entersFrom (current : Key) : List Name → Bool
  | [] => true
  | name :: rest => tree.passes current name && entersFrom (current ++ [name]) rest

/-- Discovery visits the entries of the directory. -/
def enters (dir : Key) : Bool :=
  tree.entersFrom [] dir

/-- Discovery lists the directory; a nested module is listed and not entered. -/
def listed (dir : Key) : Bool :=
  decide (dir = []) ||
    (tree.enters (keyDir dir) && decide (tree.kind dir = some .directory) &&
      !(keyBase dir).any isExcludedDirectory)

def eligible (key : Key) : Bool :=
  tree.enters (keyDir key) && decide (tree.kind key = some .regular) && isSourceKey key

/-- The source file exists, wherever it is; an explicit selection finds it. -/
def selectable (key : Key) : Bool :=
  decide (tree.kind key = some .regular) && isSourceKey key

/-- No path of the tree is as long as the bound. -/
def Within (bound : Nat) : Prop :=
  ∀ key ∈ tree.nodes.keys, key.length < bound

instance (bound : Nat) : Decidable (tree.Within bound) :=
  inferInstanceAs (Decidable (∀ key ∈ tree.nodes.keys, key.length < bound))

/-! ## Paths of a tree -/

variable {tree}

variable {key dir : Key} {kind : Kind}

theorem kind_some (known : tree.kind key = some kind) :
    ∃ info, tree.info key = some info ∧ info.kind = kind :=
  Option.map_eq_some_iff.mp known

theorem mem_of_kind (known : tree.kind key = some kind) : key ∈ tree.nodes := by
  obtain ⟨info, located, _⟩ := kind_some known
  obtain ⟨node, present, _⟩ := Option.map_eq_some_iff.mp located
  rw [← AList.lookup_isSome, present]
  rfl

theorem kind_root : tree.kind [] = some .directory := by
  obtain ⟨identity, present⟩ := tree.root
  simp [kind, info, present, Node.info]

variable {name : Name}

theorem kind_parent (known : tree.kind (dir ++ [name]) = some kind) :
    tree.kind dir = some .directory := by
  obtain ⟨identity, present⟩ := tree.parents dir name (mem_of_kind known)
  simp [Tree.kind, info, present, Node.info]

theorem kind_ancestor {rest : Key} (known : tree.kind (ancestor ++ name :: rest) = some kind) :
    tree.kind ancestor = some .directory := by
  induction rest generalizing ancestor name with
  | nil => exact kind_parent known
  | cons _ _ ih =>
    have child : tree.kind (ancestor ++ [name]) = some .directory :=
      ih (by simpa using known)
    exact kind_parent child

theorem kind_of_above (below : ancestor <+: key)
    (different : ancestor ≠ key) (known : tree.kind key = some kind) :
    tree.kind ancestor = some .directory := by
  obtain ⟨rest, rfl⟩ := below
  cases rest with
  | nil => simp at different
  | cons => exact kind_ancestor known

/-! ## What discovery visits -/

theorem passes_iff :
    tree.passes dir name = true ↔
      tree.kind (dir ++ [name]) = some .directory ∧ isExcludedDirectory name = false ∧
        tree.isModule (dir ++ [name]) = false := by
  simp [passes, and_assoc]

theorem entersFrom_append (current first second : Key) :
    tree.entersFrom current (first ++ second) =
      (tree.entersFrom current first && tree.entersFrom (current ++ first) second) := by
  induction first generalizing current with
  | nil => simp [entersFrom]
  | cons _ _ ih =>
    simp [entersFrom, ih, Bool.and_assoc]

@[simp]
theorem enters_root : tree.enters [] = true :=
  rfl

theorem enters_concat (dir : Key) (name : Name) :
    tree.enters (dir ++ [name]) = (tree.enters dir && tree.passes dir name) := by
  unfold enters
  rw [entersFrom_append]
  simp [entersFrom]

theorem enters_of_above (below : dir <+: key) (entered : tree.enters key = true) :
    tree.enters dir = true := by
  obtain ⟨rest, rfl⟩ := below
  unfold enters at entered ⊢
  rw [entersFrom_append, Bool.and_eq_true] at entered
  exact entered.1

theorem key_cases (key : Key) : key = [] ∨ ∃ dir name, key = dir ++ [name] := by
  rcases eq_nil_or_concat key with root | ⟨dir, name, child⟩
  · exact Or.inl root
  · exact Or.inr ⟨dir, name, by simpa using child⟩

theorem enters_directory (entered : tree.enters dir = true) :
    tree.kind dir = some .directory := by
  rcases key_cases dir with rfl | ⟨parent, name, rfl⟩
  · exact kind_root
  · rw [enters_concat, Bool.and_eq_true] at entered
    exact (passes_iff.mp entered.2).1

theorem listed_concat :
    tree.listed (dir ++ [name]) = true ↔
      tree.enters dir = true ∧ tree.kind (dir ++ [name]) = some .directory ∧
        isExcludedDirectory name = false := by
  simp [listed, keyDir, keyBase, and_assoc]

theorem listed_directory (isListed : tree.listed dir = true) :
    tree.kind dir = some .directory := by
  rcases key_cases dir with rfl | ⟨parent, name, rfl⟩
  · exact kind_root
  · exact (listed_concat.mp isListed).2.1

theorem listed_of_enters (entered : tree.enters dir = true) :
    tree.listed dir = true := by
  rcases key_cases dir with rfl | ⟨parent, name, rfl⟩
  · rfl
  · rw [enters_concat, Bool.and_eq_true] at entered
    obtain ⟨isDirectory, kept, _⟩ := passes_iff.mp entered.2
    exact listed_concat.mpr ⟨entered.1, isDirectory, kept⟩

theorem enters_iff_listed (proper : dir ≠ []) :
    tree.enters dir = true ↔
      tree.listed dir = true ∧ tree.isModule dir = false := by
  rcases key_cases dir with rfl | ⟨parent, name, rfl⟩
  · exact absurd rfl proper
  · rw [enters_concat, Bool.and_eq_true, passes_iff, listed_concat]
    tauto

theorem eligible_concat :
    tree.eligible (dir ++ [name]) = true ↔
      tree.enters dir = true ∧ tree.kind (dir ++ [name]) = some .regular ∧
        isWorkspaceSource name = true := by
  rw [eligible, isSourceKey_concat]
  simp [keyDir, and_assoc]

theorem eligible_cases (isEligible : tree.eligible key = true) :
    ∃ dir name, key = dir ++ [name] ∧ tree.enters dir = true ∧
      tree.kind key = some .regular ∧ isWorkspaceSource name = true := by
  rcases key_cases key with rfl | ⟨dir, name, rfl⟩
  · simp [eligible, isSourceKey, keyBase] at isEligible
  · obtain ⟨entered, regular, source⟩ := eligible_concat.mp isEligible
    exact ⟨dir, name, rfl, entered, regular, source⟩

theorem selectable_of_eligible (isEligible : tree.eligible key = true) :
    tree.selectable key = true := by
  simp only [eligible, selectable, Bool.and_eq_true] at isEligible ⊢
  exact ⟨isEligible.1.2, isEligible.2⟩

theorem eligible_below (isDirectory : tree.kind dir = some .directory)
    (below : dir <+: key) (isEligible : tree.eligible key = true) :
    tree.enters dir = true ∧ ∃ name, dir ++ [name] <+: key ∧
      (key = dir ++ [name] ∨ tree.listed (dir ++ [name]) = true) := by
  obtain ⟨rest, rfl⟩ := below
  cases rest with
  | nil =>
    obtain ⟨_, _, _, _, regular, _⟩ := eligible_cases isEligible
    rw [append_nil, isDirectory] at regular
    cases regular
  | cons name others =>
    obtain ⟨parent, base, shape, entered, _, _⟩ := eligible_cases isEligible
    have under : dir <+: parent := by
      have both : dir ++ name :: others = parent ++ [base] := shape
      rcases key_cases (name :: others) with impossible | ⟨middle, last, split⟩
      · cases impossible
      · rw [split, ← append_assoc] at both
        obtain ⟨same, _⟩ := append_inj' both rfl
        exact ⟨middle, same⟩
    refine ⟨enters_of_above under entered, name, ⟨others, by simp⟩, ?_⟩
    cases others with
    | nil => exact Or.inl rfl
    | cons next remaining =>
      right
      have child : dir ++ [name] <+: parent ++ [base] := by
        rw [← shape]
        exact ⟨next :: remaining, by simp⟩
      have deeper : dir ++ [name] <+: parent := by
        refine prefix_of_prefix_length_le child (prefix_append _ _) ?_
        have lengths := congrArg length shape
        simp only [length_append, length_cons, length_nil] at lengths ⊢
        omega
      exact listed_of_enters (enters_of_above deeper entered)

/-! ## Listings -/

/-- The listing of a directory is that of the tree. -/
def Lists (tree : Tree) (dir : Key) (listing : Listing) : Prop :=
  ∀ name kind, (⟨name, kind⟩ : DirEntry) ∈ listing.entries ↔
    tree.kind (dir ++ [name]) = some kind

def childName (dir key : Key) : Option Name :=
  if keyDir key = dir then keyBase key else none

theorem childName_some : childName dir key = some name ↔ key = dir ++ [name] := by
  rcases key_cases key with rfl | ⟨parent, base, rfl⟩
  · simp [childName, keyBase]
  simp only [childName, keyDir, keyBase, dropLast_concat, getLast?_concat]
  constructor
  · intro named
    split at named
    next same =>
      cases named
      rw [same]
    · cases named
  · intro same
    obtain ⟨rfl, last⟩ := append_inj' same rfl
    cases last
    simp

def children (tree : Tree) (dir : Key) : List Name :=
  (tree.nodes.keys.filterMap (childName dir)).insertionSort
    fun left right => left.text ≤ right.text

theorem mem_children : name ∈ tree.children dir ↔ dir ++ [name] ∈ tree.nodes := by
  unfold children
  rw [(perm_insertionSort _ _).mem_iff, mem_filterMap]
  constructor
  · rintro ⟨key, present, named⟩
    rw [← childName_some.mp named]
    exact AList.mem_keys.mp present
  · intro present
    exact ⟨_, AList.mem_keys.mpr present, childName_some.mpr rfl⟩

theorem children_nodup (dir : Key) : (tree.children dir).Nodup := by
  unfold children
  rw [(perm_insertionSort _ _).nodup_iff]
  refine List.Nodup.filterMap ?_ tree.nodes.nodupKeys
  intro first second name named alsoNamed
  rw [childName_some.mp named, childName_some.mp alsoNamed]

theorem children_sorted (dir : Key) :
    (tree.children dir).Pairwise fun left right => left.text < right.text := by
  have total : Std.Total fun left right : Name => left.text ≤ right.text :=
    ⟨fun left right => le_total left.text right.text⟩
  have transitive : IsTrans Name fun left right => left.text ≤ right.text :=
    ⟨fun _ _ _ first second => le_trans first second⟩
  have sorted : (tree.children dir).Pairwise fun left right => left.text ≤ right.text :=
    pairwise_insertionSort _ _
  refine List.Pairwise.imp₂ ?_ (children_nodup dir) sorted
  intro left right different le
  exact lt_of_le_of_ne le fun same => different (Name.ext_text same)

def listing (tree : Tree) (dir : Key) : Listing where
  entries := (tree.children dir).map fun name =>
    ⟨name, (tree.kind (dir ++ [name])).getD .other⟩
  sorted := by
    rw [pairwise_map]
    exact children_sorted dir

theorem kind_of_mem (present : key ∈ tree.nodes) : ∃ kind, tree.kind key = some kind := by
  rw [← AList.lookup_isSome] at present
  obtain ⟨node, located⟩ := Option.isSome_iff_exists.mp present
  exact ⟨node.info.kind, by simp [kind, info, located]⟩

theorem listing_lists (dir : Key) : tree.Lists dir (tree.listing dir) := by
  intro name kind
  simp only [listing, mem_map, DirEntry.mk.injEq]
  constructor
  · rintro ⟨child, present, rfl, isKind⟩
    obtain ⟨found, known⟩ := kind_of_mem (mem_children.mp present)
    rw [known] at isKind ⊢
    exact congrArg some isKind
  · intro known
    exact ⟨name, mem_children.mpr (mem_of_kind known), rfl, by rw [known]; rfl⟩

theorem Lists.containsGoModule {listing : Listing} (lists : tree.Lists dir listing) :
    Documents.containsGoModule listing = tree.isModule dir := by
  rw [Bool.eq_iff_iff]
  simp only [Documents.containsGoModule, any_eq_true, Bool.and_eq_true, beq_iff_eq,
    bne_iff_ne, isModule, Bool.or_eq_true, decide_eq_true_eq]
  constructor
  · rintro ⟨⟨name, kind⟩, present, ⟨rfl, notDirectory⟩, notLink⟩
    have known := (lists _ _).mp present
    cases kind with
    | directory => exact absurd rfl notDirectory
    | symlink => exact absurd rfl notLink
    | regular => exact Or.inl known
    | other => exact Or.inr known
  · rintro (known | known)
    · exact ⟨⟨goMod, .regular⟩, (lists _ _).mpr known, by simp⟩
    · exact ⟨⟨goMod, .other⟩, (lists _ _).mpr known, by simp⟩

theorem Lists.any_name {listing : Listing} (lists : tree.Lists dir listing) (name : Name) :
    (listing.entries.any fun entry => some entry.name == some name) = true ↔
      dir ++ [name] ∈ tree.nodes := by
  simp only [any_eq_true, beq_iff_eq, Option.some.injEq]
  constructor
  · rintro ⟨⟨found, kind⟩, present, rfl⟩
    exact mem_of_kind ((lists _ _).mp present)
  · intro present
    obtain ⟨kind, known⟩ := kind_of_mem present
    exact ⟨⟨name, kind⟩, (lists _ _).mpr known, rfl⟩

end Tree

/-! ## Answers -/

def isContinuation (byte : Char) : Bool :=
  decide (0x80 ≤ byte.toNat) && decide (byte.toNat ≤ 0xBF)

/-- The second byte that the first byte of a longer sequence allows. -/
def isSecond (first second : Char) : Bool :=
  decide ((if first.toNat = 0xE0 then 0xA0 else if first.toNat = 0xF0 then 0x90 else 0x80) ≤
      second.toNat) &&
    decide (second.toNat ≤
      (if first.toNat = 0xED then 0x9F else if first.toNat = 0xF4 then 0x8F else 0xBF))

/-- `utf8.ValidString`. -/
def validUTF8 : Text → Bool
  | [] => true
  | first :: rest =>
    if first.toNat < 0x80 then
      validUTF8 rest
    else if first.toNat < 0xC2 then
      false
    else if first.toNat < 0xE0 then
      match rest with
      | second :: rest => isContinuation second && validUTF8 rest
      | _ => false
    else if first.toNat < 0xF0 then
      match rest with
      | second :: third :: rest =>
        isSecond first second && isContinuation third && validUTF8 rest
      | _ => false
    else if first.toNat < 0xF5 then
      match rest with
      | second :: third :: fourth :: rest =>
        isSecond first second && isContinuation third && isContinuation fourth && validUTF8 rest
      | _ => false
    else
      false

/-- `fs.ValidPath` of a key: the methods of `root.FS()` refuse other names, and those of
`root` take them. -/
def validPath (key : Key) : Bool :=
  key.all fun name => validUTF8 name.text

/-- The answers of a tree when nothing fails.  `unlinked` is the content of an open file
that has been removed. -/
def Tree.environment (tree : Tree) (ctxErr : GoError) (unlinked : Handle → Content) :
    Environment where
  ctxErr := ctxErr
  openRoot := []
  closeRoot := []
  readDir key :=
    if !validPath key then
      .error [.invalid]
    else
      match tree.kind key with
      | some .directory => .ok (tree.listing key)
      | some _ => .error [.message "not a directory"]
      | none => .error [.notExist]
  lstat key :=
    match tree.info key with
    | some info => .ok info
    | none => .error [.notExist]
  openFile key :=
    match tree.info key with
    | some info => .ok ⟨key, info.identity⟩
    | none => .error [.notExist]
  handleInfo handle :=
    match tree.info handle.key with
    | some info =>
      if info.identity = handle.identity then .ok info else .ok ⟨.regular, handle.identity⟩
    | none => .ok ⟨.regular, handle.identity⟩
  readAll handle :=
    match tree.nodes.lookup handle.key with
    | some (.regular identity content) =>
      if identity = handle.identity then .ok content else .ok (unlinked handle)
    | _ => .ok (unlinked handle)
  readFile key :=
    if !validPath key then
      .error [.invalid]
    else
      match tree.nodes.lookup key with
      | some (.regular _ content) => .ok content
      | some _ => .error [.message "not a regular file"]
      | none => .error [.notExist]
  lstatAbsolute key :=
    match tree.info key with
    | some info => .ok info
    | none => .error [.notExist]
  directoryInfo key :=
    match tree.info key with
    | some ⟨.directory, identity⟩ => .ok identity
    | some _ => .error [.invalid]
    | none => .error [.notExist]
  directoryInfoAfter key :=
    match tree.info key with
    | some ⟨.directory, identity⟩ => .ok identity
    | some _ => .error [.invalid]
    | none => .error [.notExist]
  backendAdd _ := []
  backendRemove _ := []

/-! ## A small workspace -/

def sampleSite : Site where
  root := [⟨"w".toList, by decide⟩]
  escape := fun text => text
  parse := fun _ _ => []
  linux := true

/-- A directory with one source file of a given name. -/
def oneFile (name : Name) : Tree :=
  Tree.ofNodes (AList.insert [name] (.regular 1 "RETURN 1".toList)
    (AList.insert [] (.directory 0) ∅)) rfl (by
      intro key present proper
      have either : key = [name] ∨ key = [] := by simpa using present
      rcases either with rfl | rfl
      · rfl
      · exact absurd rfl proper)

/-- The file `a.fql`. -/
def plainName : Name :=
  ⟨"a.fql".toList, by decide⟩

end Ferretd.Documents

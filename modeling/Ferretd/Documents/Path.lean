import Mathlib.Data.List.Basic
import Mathlib.Data.List.Lex
import Mathlib.Data.Char
import Mathlib.Data.List.Infix

/-!
# Workspace-relative paths

A key is a cleaned slash-separated path below the workspace root; it is kept as the list
of its components, and `pathText` is the string that the source stores.  The empty list
is `"."`.  A character stands for one byte.
-/

namespace Ferretd.Documents

open List

abbrev Text := List Char

/-- One component of a cleaned path. -/
structure Name where
  text : Text
  valid : text ≠ [] ∧ '/' ∉ text ∧ text ≠ ['.'] ∧ text ≠ ['.', '.']
deriving DecidableEq

abbrev Key := List Name

instance : LawfulBEq Key :=
  inferInstance

theorem Name.ext_text {left right : Name} (same : left.text = right.text) : left = right := by
  cases left
  cases right
  cases same
  rfl

def pathText : Key → Text
  | [] => ['.']
  | [name] => name.text
  | name :: next :: rest => name.text ++ '/' :: pathText (next :: rest)

/-! ## The text of a key -/

theorem split_at_slash {left right leftRest rightRest : Text} (leftFree : '/' ∉ left)
    (rightFree : '/' ∉ right) (same : left ++ '/' :: leftRest = right ++ '/' :: rightRest) :
    left = right ∧ leftRest = rightRest := by
  induction left generalizing right with
  | nil =>
    cases right with
    | nil => simpa using same
    | cons =>
      simp only [nil_append, cons_append, List.cons.injEq] at same
      rw [← same.1] at rightFree
      simp at rightFree
  | cons _ _ ih =>
    cases right with
    | nil =>
      simp only [nil_append, cons_append, List.cons.injEq] at same
      rw [same.1] at leftFree
      simp at leftFree
    | cons =>
      simp only [cons_append, List.cons.injEq] at same
      simp only [mem_cons, not_or] at leftFree rightFree
      obtain ⟨sameRest, sameTail⟩ :=
        ih leftFree.2 rightFree.2 same.2
      exact ⟨by rw [same.1, sameRest], sameTail⟩

variable {subtree : Key} {text candidate base tail : Text}

theorem slash_of_append : '/' ∈ text ++ '/' :: tail := by
  simp

variable {key : Key}

theorem eq_cons_of_pathText {name : Name} (begins : pathText key = name.text ++ '/' :: tail) :
    ∃ next rest, key = name :: next :: rest ∧ pathText (next :: rest) = tail := by
  match key with
  | [] =>
    have slash : '/' ∈ pathText [] := by
      rw [begins]
      exact slash_of_append
    simp [pathText] at slash
  | [only] =>
    have slash : '/' ∈ pathText [only] := by
      rw [begins]
      exact slash_of_append
    exact absurd slash only.valid.2.1
  | first :: next :: rest =>
    obtain ⟨same, tailSame⟩ := split_at_slash first.valid.2.1 name.valid.2.1 begins
    exact ⟨next, rest, by rw [Name.ext_text same], tailSame⟩

theorem pathText_injective {left right : Key} (same : pathText left = pathText right) :
    left = right := by
  induction left generalizing right with
  | nil =>
    match right with
    | [] =>
      rfl
    | [name] =>
      exact absurd same.symm name.valid.2.2.1
    | name :: next :: rest =>
      obtain ⟨_, _, impossible, _⟩ := eq_cons_of_pathText same
      cases impossible
  | cons name rest ih =>
    match rest with
    | [] =>
      match right with
      | [] =>
        exact absurd same name.valid.2.2.1
      | [other] =>
        rw [Name.ext_text same]
      | other :: next :: others =>
        obtain ⟨_, _, impossible, _⟩ := eq_cons_of_pathText same
        cases impossible
    | next :: others =>
      obtain ⟨following, remaining, shape, tailSame⟩ := eq_cons_of_pathText same.symm
      rw [shape, ih tailSame.symm]

theorem pathText_append {base rest : Key} (proper : base ≠ []) (below : rest ≠ []) :
    pathText (base ++ rest) = pathText base ++ '/' :: pathText rest := by
  induction base with
  | nil => exact absurd rfl proper
  | cons _ others ih =>
    match others with
    | [] =>
      match rest with
      | [] =>
        exact absurd rfl below
      | next :: remaining =>
        rfl
    | next :: remaining =>
      have tail := ih (by simp)
      simp only [cons_append] at tail ⊢
      simp [pathText, tail]

/-- The text comparison by which both `workspacePathInSubtree` and
`watcherPathAtOrBelow` recognise what lies at or below a path. -/
def pathAtOrBelow (candidate base : Text) : Bool :=
  decide (candidate = base) ||
    (decide (base.length < candidate.length) && decide (candidate.take base.length = base) &&
      decide (candidate[base.length]? = some '/'))

theorem pathAtOrBelow_iff :
    pathAtOrBelow candidate base = true ↔
      candidate = base ∨ ∃ tail, candidate = base ++ '/' :: tail := by
  constructor
  · intro holds
    simp only [pathAtOrBelow, Bool.or_eq_true, Bool.and_eq_true, decide_eq_true_eq] at holds
    rcases holds with same | ⟨⟨longer, begins⟩, slash⟩
    · exact Or.inl same
    right
    refine ⟨candidate.drop (base.length + 1), ?_⟩
    obtain ⟨inside, isSlash⟩ := List.getElem?_eq_some_iff.mp slash
    calc
      candidate = candidate.take base.length ++ candidate.drop base.length :=
        (take_append_drop _ _).symm
      _ = base ++ '/' :: candidate.drop (base.length + 1) := by
        rw [begins, drop_eq_getElem_cons inside, isSlash]
  · rintro (rfl | ⟨tail, rfl⟩)
    · simp [pathAtOrBelow]
    · simp [pathAtOrBelow]

def workspacePathInSubtree (relativePath subtree : Key) : Bool :=
  decide (pathText subtree = ['.']) || pathAtOrBelow (pathText relativePath) (pathText subtree)

theorem pathAtOrBelow_pathText {base : Key} (proper : base ≠ []) :
    pathAtOrBelow (pathText key) (pathText base) = true ↔ base <+: key := by
  rw [pathAtOrBelow_iff]
  constructor
  · rintro (same | ⟨tail, begins⟩)
    · rw [pathText_injective same]
    -- the components of `base` are read off the text one by one
    induction base generalizing key tail with
    | nil => exact absurd rfl proper
    | cons name rest ih =>
      match rest with
      | [] =>
        obtain ⟨next, others, rfl, _⟩ := eq_cons_of_pathText begins
        exact ⟨next :: others, rfl⟩
      | next :: others =>
        have split : pathText key =
            name.text ++ '/' :: (pathText (next :: others) ++ '/' :: tail) := by
          rw [begins]
          simp [pathText]
        obtain ⟨following, remaining, rfl, tailSame⟩ := eq_cons_of_pathText split
        have below := ih (by simp) tail tailSame
        exact cons_prefix_cons.mpr ⟨rfl, below⟩
  · rintro ⟨rest, rfl⟩
    cases rest with
    | nil => exact Or.inl (by simp)
    | cons name others =>
      exact Or.inr ⟨pathText (name :: others), pathText_append proper (by simp)⟩

theorem workspacePathInSubtree_iff :
    workspacePathInSubtree key subtree = true ↔ subtree <+: key := by
  unfold workspacePathInSubtree
  cases subtree with
  | nil => simp [pathText]
  | cons name rest =>
    have named : pathText (name :: rest) ≠ ['.'] := by
      intro same
      have impossible : (name :: rest : Key) = [] := pathText_injective same
      cases impossible
    rw [Bool.or_eq_true, decide_eq_true_eq, pathAtOrBelow_pathText (by simp)]
    exact ⟨fun holds => holds.resolve_left named, Or.inr⟩

/-- The text of an absolute path from its components. -/
def absoluteText (components : Key) : Text :=
  match components with
  | [] => ['/']
  | name :: rest => '/' :: pathText (name :: rest)

/-- `watcherPathAtOrBelow`, on absolute paths.  Below the file system root it finds the
root only. -/
def watcherPathAtOrBelow (candidate base : Key) : Bool :=
  pathAtOrBelow (absoluteText candidate) (absoluteText base)

theorem pathText_head (key : Key) : ∃ char tail, pathText key = char :: tail ∧ char ≠ '/' := by
  match key with
  | [] => exact ⟨'.', [], rfl, by decide⟩
  | name :: rest =>
    obtain ⟨char, tail, shape⟩ := exists_cons_of_ne_nil name.valid.1
    have other : char ≠ '/' := by
      rintro rfl
      exact name.valid.2.1 (by simp [shape])
    cases rest with
    | nil => exact ⟨char, tail, shape, other⟩
    | cons => exact ⟨char, _, by rw [pathText, shape, cons_append], other⟩

theorem watcherPathAtOrBelow_iff {base : Key} (proper : base ≠ []) :
    watcherPathAtOrBelow key base = true ↔ base <+: key := by
  obtain ⟨name, rest, rfl⟩ := exists_cons_of_ne_nil proper
  cases key with
  | nil =>
    obtain ⟨char, tail, shape, -⟩ := pathText_head (name :: rest)
    simp [watcherPathAtOrBelow, pathAtOrBelow_iff, absoluteText, shape]
  | cons =>
    rw [← pathAtOrBelow_pathText proper, watcherPathAtOrBelow, pathAtOrBelow_iff,
      pathAtOrBelow_iff]
    simp [absoluteText]

theorem watcherPathAtOrBelow_root : watcherPathAtOrBelow key [] = true ↔ key = [] := by
  cases key with
  | nil => simp [watcherPathAtOrBelow, pathAtOrBelow_iff]
  | cons name rest =>
    obtain ⟨char, tail, shape, other⟩ := pathText_head (name :: rest)
    simp [watcherPathAtOrBelow, pathAtOrBelow_iff, absoluteText, shape, other]

/-! ## Normalisation -/

/-- `strings.Split(text, "/")`. -/
def splitSlash : Text → List Text
  | [] => [[]]
  | char :: rest =>
    if char = '/' then
      [] :: splitSlash rest
    else
      match splitSlash rest with
      | [] => [[char]]
      | component :: others => (char :: component) :: others

/-- `path.Clean` of a relative path: `ups` components `..` and then the names. -/
structure Cleaned where
  ups : Nat
  names : Key

def Cleaned.push (cleaned : Cleaned) (component : Text) : Cleaned :=
  if component = ['.', '.'] then
    match cleaned.names with
    | [] => { cleaned with ups := cleaned.ups + 1 }
    | names => { cleaned with names := names.dropLast }
  else if valid : component ≠ [] ∧ '/' ∉ component ∧ component ≠ ['.'] ∧
      component ≠ ['.', '.'] then
    { cleaned with names := cleaned.names ++ [⟨component, valid⟩] }
  else
    -- an empty component or `.`
    cleaned

def pathClean (text : Text) : Cleaned :=
  (splitSlash text).foldl Cleaned.push ⟨0, []⟩

def normalizeWorkspacePath (relativePath : Text) : Option Key :=
  if relativePath = [] ∨ relativePath.head? = some '/' then
    none
  else
    let key := pathClean relativePath
    if key.ups ≠ 0 then none else some key.names

def normalizeDocumentPath (relativePath : Text) : Option Key :=
  match normalizeWorkspacePath relativePath with
  | some [] => none
  | result => result

theorem splitSlash_append_slash {rest : Text} (free : '/' ∉ text) :
    splitSlash (text ++ '/' :: rest) = text :: splitSlash rest := by
  induction text with
  | nil => simp [splitSlash]
  | cons char _ ih =>
    rw [mem_cons, not_or] at free
    have different : char ≠ '/' := fun same => free.1 same.symm
    rw [cons_append, splitSlash, if_neg different, ih free.2]

theorem splitSlash_of_free (free : '/' ∉ text) : splitSlash text = [text] := by
  induction text with
  | nil => rfl
  | cons char _ ih =>
    rw [mem_cons, not_or] at free
    have different : char ≠ '/' := fun same => free.1 same.symm
    rw [splitSlash, if_neg different, ih free.2]

theorem splitSlash_pathText (proper : key ≠ []) :
    splitSlash (pathText key) = key.map Name.text := by
  induction key with
  | nil => exact absurd rfl proper
  | cons name rest ih =>
    cases rest with
    | nil => exact splitSlash_of_free name.valid.2.1
    | cons =>
      rw [pathText, splitSlash_append_slash name.valid.2.1, ih (by simp)]
      rfl

theorem Cleaned.push_name (cleaned : Cleaned) (name : Name) :
    cleaned.push name.text = { cleaned with names := cleaned.names ++ [name] } := by
  rw [Cleaned.push, if_neg name.valid.2.2.2, dif_pos name.valid]

theorem foldl_push_names (cleaned : Cleaned) (names : Key) :
    (names.map Name.text).foldl Cleaned.push cleaned =
      { cleaned with names := cleaned.names ++ names } := by
  induction names generalizing cleaned with
  | nil => simp
  | cons _ _ ih =>
    rw [map_cons, foldl_cons, Cleaned.push_name, ih]
    simp

theorem normalizeWorkspacePath_pathText (key : Key) :
    normalizeWorkspacePath (pathText key) = some key := by
  cases key with
  | nil => decide
  | cons name rest =>
    have cleaned : pathClean (pathText (name :: rest)) = ⟨0, name :: rest⟩ := by
      rw [pathClean, splitSlash_pathText (by simp), foldl_push_names]
      rfl
    obtain ⟨char, others, shape, different⟩ := pathText_head (name :: rest)
    unfold normalizeWorkspacePath
    rw [cleaned, shape]
    simp [different]

theorem normalizeDocumentPath_pathText (proper : key ≠ []) :
    normalizeDocumentPath (pathText key) = some key := by
  unfold normalizeDocumentPath
  rw [normalizeWorkspacePath_pathText]
  cases key with
  | nil => exact absurd rfl proper
  | cons => rfl

/-! ## Names with a meaning -/

def isExcludedDirectory (name : Name) : Bool :=
  name.text.head? == some '.' || name.text.head? == some '_' ||
    name.text == "node_modules".toList || name.text == "testdata".toList ||
    name.text == "vendor".toList

/-- `path.Ext` of a name. -/
def pathExt (text : Text) : Text :=
  if '.' ∈ text then '.' :: (text.reverse.takeWhile (· ≠ '.')).reverse else []

def isWorkspaceSource (name : Name) : Bool :=
  pathExt name.text == ".fql".toList

def goMod : Name :=
  ⟨"go.mod".toList, by decide⟩

/-- `path.Base` of a key other than `"."`. -/
def keyBase (key : Key) : Option Name :=
  key.getLast?

/-- `path.Dir`. -/
def keyDir (key : Key) : Key :=
  key.dropLast

/-- `isWorkspaceSource(path.Base(key))`. -/
def isSourceKey (key : Key) : Bool :=
  (keyBase key).any isWorkspaceSource

theorem isSourceKey_concat (dir : Key) (name : Name) :
    isSourceKey (dir ++ [name]) = isWorkspaceSource name := by
  simp [isSourceKey, keyBase]

theorem goMod_not_source : isWorkspaceSource goMod = false := by
  decide

/-- A directory component of the key is excluded by name. -/
def hasExcluded (key : Key) : Bool :=
  key.any isExcludedDirectory

end Ferretd.Documents

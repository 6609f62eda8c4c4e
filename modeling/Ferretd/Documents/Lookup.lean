import Mathlib.Data.Prod.Lex
import Ferretd.Documents.Document

/-!
# Documents of nested workspaces

`LookupDocument`: an absolute path is answered by the deepest active workspace above it.
-/

namespace Ferretd.Documents

open List

structure Opened where
  id : Nat
  root : Key
  documents : AList fun _ : Key => Document

structure DocumentLookup where
  document : Document
  workspace : Nat

/-- `filepath.Rel` on cleaned absolute paths: the steps up, and the names below. -/
def relative : Key → Key → Nat × Key
  | first :: base, next :: target =>
    if first = next then relative base target else (base.length + 1, next :: target)
  | base, target => (base.length, target)

def relativeText : Nat → Key → Text
  | 0, names => pathText names
  | 1, [] => ['.', '.']
  | ups + 1, names => '.' :: '.' :: '/' :: relativeText ups names

def pathWithinRoot (root candidate : Key) : Option Text :=
  let text := relativeText (relative root candidate).1 (relative root candidate).2
  if text = ['.'] ∨ text = ['.', '.'] ∨ text.head? = some '/' ∨ text.take 3 = ['.', '.', '/'] then
    none
  else
    some text

/-- `Workspace.Document`. -/
def Opened.document (item : Opened) (relativePath : Text) : Option Document :=
  (normalizeDocumentPath relativePath).bind fun key => item.documents.lookup key

/-- The order in which the workspaces are tried: longer roots first. -/
def Opened.rank (item : Opened) : Lex (ℕᵒᵈ × Text) :=
  toLex (OrderDual.toDual (absoluteText item.root).length, absoluteText item.root)

def sortByRoot (workspaces : List Opened) : List Opened :=
  workspaces.mergeSort fun left right => decide (left.rank ≤ right.rank)

/-- The loop over the sorted workspaces; `ctxErr` is what each test of the context reads. -/
def searchDocument (ctxErr : Nat → GoError) (path : Key) :
    Nat → List Opened → Except GoError (Option DocumentLookup)
  | _, [] => .ok none
  | test, item :: rest =>
    if ctxErr test ≠ [] then
      .error (ctxErr test)
    else
      match pathWithinRoot item.root path with
      | none => searchDocument ctxErr path (test + 1) rest
      | some relativePath => .ok ((item.document relativePath).map fun doc => ⟨doc, item.id⟩)

/-- `LookupDocument`, with the active workspaces in the order in which the map gives them. -/
def lookupDocument (ctxErr : Nat → GoError) (workspaces : List Opened) (absolutePath : Text) :
    Except GoError (Option DocumentLookup) :=
  if ctxErr 0 ≠ [] then
    .error (ctxErr 0)
  else if absolutePath.head? ≠ some '/' then
    .error [.message "invalid workspace root", .message "document path must be absolute"]
  else
    searchDocument ctxErr (pathClean absolutePath).names 1 (sortByRoot workspaces)

/-- The root is a proper ancestor of the path. -/
def Above (path : Key) (item : Opened) : Prop :=
  ∃ names, names ≠ [] ∧ path = item.root ++ names

theorem relative_append (root names : Key) : relative root (root ++ names) = (0, names) := by
  induction root with
  | nil => cases names <;> rfl
  | cons first rest ih => simp [relative, ih]

variable {path names : Key}

theorem eq_append_of_relative {root : Key} (found : relative root path = (0, names)) :
    path = root ++ names := by
  induction root generalizing path with
  | nil =>
    cases path <;> cases found <;> rfl
  | cons first rest ih =>
    cases path with
    | nil => cases found
    | cons next target =>
      rw [relative] at found
      split at found
      next same => rw [← same, ih found, cons_append]
      · cases found

theorem pathText_not_up {name : Name} {rest : Key} :
    pathText (name :: rest) ≠ ['.', '.'] ∧
      (pathText (name :: rest)).take 3 ≠ ['.', '.', '/'] := by
  have parent : pathAtOrBelow (pathText (name :: rest)) ['.', '.'] ≠ true := by
    intro up
    cases rest with
    | nil =>
      rcases pathAtOrBelow_iff.mp up with same | ⟨tail, same⟩
      · exact name.valid.2.2.2 same
      · have slash : '/' ∈ pathText [name] := same ▸ slash_of_append
        exact name.valid.2.1 slash
    | cons =>
      rcases pathAtOrBelow_iff.mp up with same | ⟨tail, same⟩
      · have slash : '/' ∈ ['.', '.'] := same ▸ slash_of_append
        exact absurd slash (by decide)
      · exact name.valid.2.2.2 (split_at_slash name.valid.2.1 (by decide) same).1
  refine ⟨fun same => parent (pathAtOrBelow_iff.mpr (.inl same)), fun same => parent ?_⟩
  refine pathAtOrBelow_iff.mpr (.inr ⟨(pathText (name :: rest)).drop 3, ?_⟩)
  conv_lhs => rw [← take_append_drop 3 (pathText (name :: rest)), same]
  rfl

/-- What is not below the root is recognised by its text, also beside a name that begins
with dots. -/
theorem pathWithinRoot_iff {root : Key} {text : Text} :
    pathWithinRoot root path = some text ↔
      ∃ names, names ≠ [] ∧ path = root ++ names ∧ text = pathText names := by
  have below : ∀ names, path = root ++ names → relative root path = (0, names) := by
    rintro names rfl
    exact relative_append root names
  unfold pathWithinRoot
  cases found : relative root path with
  | mk ups names =>
    cases ups with
    | zero =>
      cases names with
      | nil =>
        simp only [relativeText, pathText, true_or, if_true, reduceCtorEq, false_iff]
        rintro ⟨names, proper, isBelow, -⟩
        rw [below names isBelow] at found
        cases found
        exact proper rfl
      | cons name rest =>
        obtain ⟨char, tail, shape, other⟩ := pathText_head (name :: rest)
        have named : pathText (name :: rest) ≠ ['.'] := by
          intro same
          cases (pathText_injective same : name :: rest = [])
        have head : (pathText (name :: rest)).head? ≠ some '/' := by
          simpa [shape] using other
        have notUp := @pathText_not_up name rest
        simp only [relativeText, named, notUp.1, notUp.2, head, or_self, if_false]
        constructor
        · rintro ⟨⟩
          exact ⟨name :: rest, by simp, eq_append_of_relative found, rfl⟩
        · rintro ⟨names, -, isBelow, rfl⟩
          rw [below names isBelow] at found
          cases found
          rfl
    | succ ups =>
      have refused : relativeText (ups + 1) names = ['.', '.'] ∨
          (relativeText (ups + 1) names).take 3 = ['.', '.', '/'] := by
        unfold relativeText
        split
        · contradiction
        · exact .inl rfl
        · exact .inr rfl
      rw [if_pos (by tauto)]
      simp only [reduceCtorEq, false_iff]
      rintro ⟨other, -, isBelow, -⟩
      rw [below other isBelow] at found
      cases found

theorem document_pathText {item : Opened} (proper : names ≠ []) :
    item.document (pathText names) = item.documents.lookup names := by
  rw [Opened.document, normalizeDocumentPath_pathText proper, Option.bind_some]

theorem length_lt_of_proper (base : Key) {rest : Key} (proper : rest ≠ []) :
    (absoluteText base).length < (absoluteText (base ++ rest)).length := by
  obtain ⟨char, tail, shape, -⟩ := pathText_head rest
  cases base with
  | nil =>
    obtain ⟨name, others, rfl⟩ := exists_cons_of_ne_nil proper
    simp [absoluteText, shape]
  | cons name others =>
    have split := pathText_append (cons_ne_nil name others) proper
    rw [cons_append] at split
    simp only [absoluteText, cons_append, split, length_append, length_cons]
    omega

theorem eq_of_length {left right : Key} (begins : left <+: right)
    (same : (absoluteText left).length = (absoluteText right).length) : left = right := by
  obtain ⟨rest, rfl⟩ := begins
  by_contra different
  have longer := length_lt_of_proper left (by simpa using different)
  omega

/-- The workspace is the one with the longest root above the path. -/
structure Deepest (path : Key) (workspaces : List Opened) (item : Opened) (names : Key) : Prop where
  member : item ∈ workspaces
  proper : names ≠ []
  below : path = item.root ++ names
  longest : ∀ other ∈ workspaces, Above path other →
    (absoluteText other.root).length ≤ (absoluteText item.root).length

theorem searchDocument_eq {ctxErr : Nat → GoError} (live : ∀ test, ctxErr test = [])
    (test : Nat) {sorted : List Opened} (descends : sorted.Pairwise fun first second =>
      (absoluteText second.root).length ≤ (absoluteText first.root).length) :
    (∃ item names, Deepest path sorted item names ∧
      searchDocument ctxErr path test sorted =
        .ok ((item.documents.lookup names).map fun doc => ⟨doc, item.id⟩)) ∨
    (∀ item ∈ sorted, ¬ Above path item) ∧ searchDocument ctxErr path test sorted = .ok none := by
  induction sorted generalizing test with
  | nil => exact .inr ⟨by simp, rfl⟩
  | cons item rest ih =>
    obtain ⟨below, descends⟩ := pairwise_cons.mp descends
    rw [searchDocument, if_neg (by simp [live])]
    cases found : pathWithinRoot item.root path with
    | some text =>
      obtain ⟨names, proper, isBelow, rfl⟩ := pathWithinRoot_iff.mp found
      refine .inl ⟨item, names, ⟨by simp, proper, isBelow, ?_⟩, ?_⟩
      · intro other member _
        rcases mem_cons.mp member with rfl | later
        · exact le_rfl
        · exact below other later
      · simp only [document_pathText proper]
    | none =>
      have notAbove : ¬ Above path item := by
        rintro ⟨names, proper, isBelow⟩
        rw [pathWithinRoot_iff.mpr ⟨names, proper, isBelow, rfl⟩] at found
        cases found
      rcases ih (test + 1) descends with ⟨deep, names, deepest, answer⟩ | ⟨none, answer⟩
      · refine .inl ⟨deep, names, ⟨mem_cons_of_mem _ deepest.member, deepest.proper,
          deepest.below, ?_⟩, answer⟩
        intro other member isAbove
        rcases mem_cons.mp member with rfl | later
        · exact absurd isAbove notAbove
        · exact deepest.longest other later isAbove
      · exact .inr ⟨forall_mem_cons.mpr ⟨notAbove, none⟩, answer⟩

theorem sortByRoot_descends (workspaces : List Opened) :
    (sortByRoot workspaces).Pairwise fun first second =>
      (absoluteText second.root).length ≤ (absoluteText first.root).length := by
  have sorted := @pairwise_mergeSort Opened
    (fun left right => decide (left.rank ≤ right.rank))
    (fun _ _ _ => by simpa using le_trans) (fun _ _ => by simpa using le_total _ _) workspaces
  refine sorted.imp fun {first second} before => ?_
  have ranked : first.rank ≤ second.rank := by simpa using before
  exact Prod.Lex.monotone_fst _ _ ranked

/-- Whatever the order in which the map gives the active workspaces, an absolute path is
answered by the one with the longest root above it, which is unique; what that one does
not retain is not found, and neither is a path below no root. -/
theorem lookup_deepest {ctxErr : Nat → GoError} (live : ∀ test, ctxErr test = [])
    {workspaces order : List Opened} (distinct : (workspaces.map Opened.root).Nodup)
    (iterated : order.Perm workspaces) {absolutePath : Text}
    (absolute : absolutePath.head? = some '/') :
    let path := (pathClean absolutePath).names
    (∃ item names, Deepest path workspaces item names ∧
      (∀ other others, Deepest path workspaces other others → other = item) ∧
      lookupDocument ctxErr order absolutePath =
        .ok ((item.documents.lookup names).map fun doc => ⟨doc, item.id⟩)) ∨
    (∀ item ∈ workspaces, ¬ Above path item) ∧
      lookupDocument ctxErr order absolutePath = .ok none := by
  intro path
  have same : ∀ item, item ∈ sortByRoot order ↔ item ∈ workspaces :=
    fun item => mem_mergeSort.trans iterated.mem_iff
  have answers : lookupDocument ctxErr order absolutePath =
      searchDocument ctxErr path 1 (sortByRoot order) := by
    rw [lookupDocument, if_neg (by simp [live]), if_neg (by simp [absolute])]
  rw [answers]
  rcases searchDocument_eq live 1 (sortByRoot_descends order)
    with ⟨item, names, deepest, answer⟩ | ⟨none, answer⟩
  · have within : Deepest path workspaces item names :=
      ⟨(same item).mp deepest.member, deepest.proper, deepest.below,
        fun other member => deepest.longest other ((same other).mpr member)⟩
    refine Or.inl ⟨item, names, within, ?_, answer⟩
    intro other others deep
    have longer := deep.longest item within.member ⟨names, within.proper, within.below⟩
    have shorter := within.longest other deep.member ⟨others, deep.proper, deep.below⟩
    refine inj_on_of_nodup_map distinct deep.member within.member ?_
    have left : other.root <+: path := ⟨others, deep.below.symm⟩
    have right : item.root <+: path := ⟨names, within.below.symm⟩
    rcases prefix_or_prefix_of_prefix left right with begins | begins
    · exact eq_of_length begins (le_antisymm shorter longer)
    · exact (eq_of_length begins (le_antisymm longer shorter)).symm
  · exact Or.inr ⟨fun item member => none item ((same item).mpr member), answer⟩

/-- The document that the outer workspace retains is shadowed by the inner one. -/
theorem lookup_deepest_nested :
    let dots : Name := ⟨['.', '.', 'a'], by decide⟩
    let outer : Opened := ⟨0, [], AList.singleton [dots, dots] default⟩
    let inner : Opened := ⟨1, [dots], ∅⟩
    Deepest [dots, dots] [outer, inner] inner [dots] ∧
      (outer.documents.lookup [dots, dots]).isSome = true ∧
      lookupDocument (fun _ => []) [outer, inner] "/..a/..a".toList = .ok none := by
  intro dots outer inner
  have above : Above [dots, dots] inner := ⟨[dots], by simp, rfl⟩
  rcases @lookup_deepest (fun _ => []) (fun _ => rfl) [outer, inner] [outer, inner] (by decide)
    (.refl _) "/..a/..a".toList rfl with ⟨item, names, deepest, -, answer⟩ | ⟨none, -⟩
  · rcases mem_pair.mp deepest.member with rfl | rfl
    · have longest := deepest.longest inner (by simp) above
      exact absurd longest (by decide)
    · have below : names = [dots] := (append_cancel_left deepest.below).symm
      subst below
      exact ⟨deepest, by decide, answer⟩
  · exact absurd above (none inner (by simp))

end Ferretd.Documents

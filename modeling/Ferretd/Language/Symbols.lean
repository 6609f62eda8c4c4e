import Ferretd.Library.Forest
import Ferretd.Values
import Mathlib.Algebra.Order.BigOperators.Group.List
import Mathlib.Algebra.Order.Ring.Nat
import Mathlib.Data.List.FinRange
import Mathlib.Data.List.Induction

/-!
# Document symbols

`DocumentSymbols` arranges the declarations of a document: below a user-defined function
stand the declarations whose selections it is the narrowest one to contain.
-/

namespace Ferretd.Language

open Library List

/-- `compiler.SymbolKind`, as far as the kinds are told apart here. -/
inductive SymbolKind where
  | udf
  | bindParameter
  | other (kind : Nat)
deriving DecidableEq

/-- Offsets into the text of a document. -/
structure Span where
  start : Nat
  stop : Nat

/-- `compiler.Symbol`. -/
structure Symbol (ValueType : Type) where
  name : String
  kind : SymbolKind
  type : ValueType
  hasDeclaration : Bool
  declarationSpan : Span
  selectionSpan : Span

/-- The children of a `DocumentSymbol` are those of its node. -/
structure DocumentSymbol (ValueType : Type) where
  name : String
  range : Range
  selectionRange : Range
  kind : SymbolKind
  type : ValueType

variable {V : Type}

/-- The value of a `documentSymbolNode`. -/
def Symbol.value (spanToRange : Span → Range) (symbol : Symbol V) : DocumentSymbol V :=
  ⟨symbol.name, spanToRange symbol.declarationSpan, spanToRange symbol.selectionSpan, symbol.kind,
    symbol.type⟩

/-- The loop that collects the nodes. -/
def declared (symbols : List (Symbol V)) : List (Symbol V) :=
  symbols.filter fun symbol => symbol.hasDeclaration && symbol.kind != .bindParameter

variable {n : Nat} {E : Type} (nodes : Fin n → Symbol V) (index candidate : Fin n)

/-- One turn of the loop that looks for a parent, with the parent so far and `bestWidth`. -/
def consider (best : Option (Fin n) × Nat) : Option (Fin n) × Nat :=
  if index = candidate ∨ (nodes candidate).kind ≠ .udf then
    best
  else
    let container := (nodes candidate).declarationSpan
    let selection := (nodes index).selectionSpan
    if container.stop ≤ container.start ∨ selection.stop < selection.start ∨
        selection.start < container.start ∨ selection.stop > container.stop then
      best
    else
      let width := container.stop - container.start
      if best.1 = none ∨ width < best.2 then (some candidate, width) else best

def parent : Option (Fin n) :=
  ((List.finRange n).foldl (fun best candidate => consider nodes index candidate best) (none, 0)).1

/-- One turn of the loop that fills `roots` and `children`. -/
def gather (lists : List (Fin n) × (Fin n → List (Fin n))) :
    List (Fin n) × (Fin n → List (Fin n)) :=
  match parent nodes index with
  | none => (lists.1 ++ [index], lists.2)
  | some above => (lists.1, Function.update lists.2 above (lists.2 above ++ [index]))

/-- `DocumentSymbols` for the answer of `analyzedDocument`. -/
def documentSymbols (spanToRange : Span → Range) (fuel : Nat) :
    Except E (List (Symbol V)) → Option (Except E (List (Rose (DocumentSymbol V))))
  | .error err => some (.error err)
  | .ok symbols => do
    let nodes := (declared symbols).get
    let (roots, children) := (List.finRange _).foldl
      (fun lists index => gather nodes index lists) ([], fun _ => [])
    let result ← roots.mapM
      (Rose.build (fun index => (nodes index).value spanToRange) children fuel)
    return .ok result

/-! ## Parents -/

/-- The candidate is another UDF, and its declaration contains the selection. -/
def Encloses : Prop :=
  let container := (nodes candidate).declarationSpan
  let selection := (nodes index).selectionSpan
  index ≠ candidate ∧ (nodes candidate).kind = .udf ∧ container.start < container.stop ∧
    selection.start ≤ selection.stop ∧ container.start ≤ selection.start ∧
    selection.stop ≤ container.stop

instance : Decidable (Encloses nodes index candidate) :=
  inferInstanceAs (Decidable (_ ∧ _))

def width : Nat :=
  (nodes candidate).declarationSpan.stop - (nodes candidate).declarationSpan.start

/-- The parent is the narrowest of the candidates that enclose a symbol, and the first of
those; without such a candidate there is none. -/
structure IsParent (candidates : List (Fin n)) (best : Option (Fin n)) : Prop where
  encloses : ∀ above ∈ best, above ∈ candidates ∧ Encloses nodes index above
  narrowest : ∀ candidate ∈ candidates, Encloses nodes index candidate → ∃ above ∈ best,
    width nodes above < width nodes candidate ∨
      width nodes above = width nodes candidate ∧ above ≤ candidate

theorem consider_of_encloses (encloses : Encloses nodes index candidate)
    (best : Option (Fin n) × Nat) : consider nodes index candidate best =
      if best.1 = none ∨ width nodes candidate < best.2 then
        (some candidate, width nodes candidate)
      else best := by
  obtain ⟨other, udf, nonempty, span, start, stop⟩ := encloses
  unfold consider
  rw [if_neg (not_or.mpr ⟨other, not_not.mpr udf⟩)]
  exact if_neg (by omega)

theorem consider_of_not_encloses (apart : ¬ Encloses nodes index candidate)
    (best : Option (Fin n) × Nat) : consider nodes index candidate best = best := by
  unfold consider
  refine ite_eq_left_iff.mpr fun admitted => ite_eq_left_iff.mpr fun inside => ?_
  obtain ⟨other, udf⟩ := not_or.mp admitted
  refine absurd ⟨other, not_not.mp udf, ?_, ?_, ?_, ?_⟩ apart <;> omega

/-- What the search for a parent has found among the candidates so far. -/
theorem isParent_foldl (candidates : List (Fin n)) (sorted : candidates.Pairwise (· < ·)) :
    let search := fun best candidate => consider nodes index candidate best
    let best := candidates.foldl search (none, 0)
    IsParent nodes index candidates best.1 ∧ ∀ above ∈ best.1, best.2 = width nodes above := by
  induction candidates using List.reverseRecOn with
  | nil => exact ⟨⟨by simp, by simp⟩, by simp⟩
  | append_singleton seen candidate ih =>
    obtain ⟨before, -, later⟩ := pairwise_append.mp sorted
    obtain ⟨⟨encloses, narrowest⟩, widths⟩ := ih before
    dsimp only
    rw [foldl_append, foldl_cons, foldl_nil]
    generalize seen.foldl _ _ = best at encloses narrowest widths ⊢
    simp only [mem_singleton, forall_eq] at later
    by_cases enclosing : Encloses nodes index candidate
    · rw [consider_of_encloses nodes index candidate enclosing]
      split_ifs with better
      · refine ⟨⟨by simp [enclosing], ?_⟩, by simp⟩
        simp only [mem_append, mem_singleton]
        rintro other (member | rfl) found
        · obtain ⟨above, isBest, least⟩ := narrowest other member found
          have known := widths above isBest
          rcases better with absent | less
          · simp [absent] at isBest
          · exact ⟨candidate, rfl, Or.inl (by omega)⟩
        · exact ⟨other, rfl, Or.inr ⟨rfl, le_rfl⟩⟩
      · obtain ⟨present, wide⟩ := not_or.mp better
        obtain ⟨above, isBest⟩ := Option.ne_none_iff_exists'.mp present
        have known := widths above isBest
        have earlier := later above (encloses above isBest).1
        refine ⟨⟨by grind, ?_⟩, widths⟩
        simp only [mem_append, mem_singleton]
        rintro other (member | rfl) found
        · exact narrowest other member found
        · exact ⟨above, isBest, by omega⟩
    · rw [consider_of_not_encloses nodes index candidate enclosing]
      exact ⟨⟨by grind, by grind⟩, widths⟩

theorem isParent_parent : IsParent nodes index (List.finRange n) (parent nodes index) :=
  (isParent_foldl nodes index _ (pairwise_lt_finRange n)).1

/-! ## The forest -/

/-- The symbols below `above`, or the roots, in the compiler's order. -/
def siblings (above : Option (Fin n)) : List (Fin n) :=
  (List.finRange n).filter (parent nodes · = above)

theorem gather_foldl (order : List (Fin n)) (lists : List (Fin n) × (Fin n → List (Fin n))) :
    order.foldl (fun lists index => gather nodes index lists) lists =
      (lists.1 ++ order.filter (parent nodes · = none),
        fun above => lists.2 above ++ order.filter (parent nodes · = some above)) := by
  induction order generalizing lists with
  | nil => simp
  | cons index rest ih =>
    rw [foldl_cons, ih]
    unfold gather
    cases isParent : parent nodes index with
    | none => simp [isParent]
    | some above =>
      refine Prod.ext (by simp [isParent]) (funext fun other => ?_)
      by_cases same : above = other
      · subst same
        simp [isParent]
      · simp [isParent, same, Function.update_of_ne (Ne.symm same)]

theorem count_siblings (above : Option (Fin n)) :
    (siblings nodes above).count index = if parent nodes index = above then 1 else 0 := by
  split_ifs with isParent
  · rw [siblings, count_filter (by simpa using isParent)]
    exact count_eq_one_of_mem (nodup_finRange n) (mem_finRange index)
  · exact count_eq_zero_of_not_mem (by simp [siblings, isParent])

/-- A declaration whose selection lies in another UDF lies strictly inside that UDF. -/
def Nested : Prop :=
  ∀ index candidate, Encloses nodes index candidate →
    let container := (nodes candidate).declarationSpan
    let inner := (nodes index).declarationSpan
    container.start ≤ inner.start ∧ inner.stop ≤ container.stop ∧
      (container.start < inner.start ∨ inner.stop < container.stop)

instance : Decidable (Nested nodes) :=
  inferInstanceAs (Decidable (∀ _ _, _))

theorem width_lt (nested : Nested nodes) (isChild : index ∈ siblings nodes (some candidate)) :
    width nodes index < width nodes candidate := by
  have isParent := of_decide_eq_true (mem_filter.mp isChild).2
  have encloses := ((isParent_parent nodes index).encloses candidate isParent).2
  have inside := nested index candidate encloses
  have nonempty := encloses.2.2.1
  unfold width
  omega

/-- The recursion ends.  Every declared symbol but the bind parameters stands in the forest
exactly once, below the narrowest UDF that contains its selection, and siblings keep the
compiler's order. -/
theorem documentSymbols_forest (spanToRange : Span → Range)
    (symbols : List (Symbol V)) (nested : Nested (declared symbols).get) :
    let nodes := (declared symbols).get
    declared symbols =
      symbols.filter (fun symbol => symbol.hasDeclaration ∧ symbol.kind ≠ .bindParameter) ∧
    ∃ forest : List (Rose (Fin (declared symbols).length)),
      (∃ bound, ∀ fuel ≥ bound, documentSymbols spanToRange fuel (.ok symbols) =
        some (.ok (forest.map (Rose.map fun index => (nodes index).value spanToRange)) :
          Except E _)) ∧
      (forest.flatMap Rose.values).Perm (List.finRange _) ∧
      forest.map Rose.root = siblings nodes none ∧
      (∀ tree ∈ forest, tree.Arranged fun above => siblings nodes (some above)) ∧
      ∀ index, IsParent nodes index (List.finRange _) (parent nodes index) := by
  intro nodes
  have ranked : ∀ above, ∀ index ∈ siblings nodes (some above),
      width nodes index < width nodes above := fun above index => width_lt nodes index above nested
  obtain ⟨depth, deep⟩ : ∃ depth, ∀ index, width nodes index < depth :=
    ⟨((List.finRange _).map (width nodes)).sum + 1, fun index => Nat.lt_succ_of_le
      (le_sum_of_mem (mem_map_of_mem (mem_finRange index)))⟩
  refine ⟨filter_congr fun symbol _ => Bool.eq_iff_iff.mpr (by simp),
    (siblings nodes none).map (Rose.grow (fun above => siblings nodes (some above)) depth),
    ⟨depth, fun fuel enough => ?_⟩, ?_, ?_, ?_, fun index => isParent_parent nodes index⟩
  · have built := Rose.mapM_eq_some fun index (_ : index ∈ siblings nodes none) =>
      Rose.build_eq_grow ranked (fun index => (nodes index).value spanToRange) (deep index) enough
    unfold documentSymbols
    dsimp only
    rw [gather_foldl]
    dsimp only
    rw [map_map]
    exact congrArg (· >>= fun result => some (Except.ok result)) built
  · rw [flatMap_map]
    exact Rose.values_perm ranked (fun above index => count_siblings nodes index (some above))
      (fun index => count_eq_one_of_mem (nodup_finRange _) (mem_finRange index))
      (fun index => count_siblings nodes index none) deep
  · rw [map_map]
    exact map_id'' (fun index => Rose.grow_root depth index) _
  · intro tree member
    obtain ⟨index, -, rfl⟩ := mem_map.mp member
    exact Rose.grow_arranged ranked (deep index)

theorem documentSymbols_forest_parameter :
    let f : Symbol Unit := ⟨"f", .udf, (), true, ⟨0, 20⟩, ⟨5, 6⟩⟩
    let x : Symbol Unit := ⟨"x", .other 1, (), true, ⟨7, 8⟩, ⟨7, 8⟩⟩
    let range : Span → Range := fun _ => ⟨⟨0, 0⟩, ⟨0, 0⟩⟩
    Nested (declared [f, x]).get ∧
      ∃ bound, ∀ fuel ≥ bound, documentSymbols range fuel (.ok [f, x]) =
        some (.ok [.node (f.value range) [.node (x.value range) []]] : Except Unit _) := by
  intro f x range
  have nested : Nested (declared [f, x]).get := by decide
  refine ⟨nested, ?_⟩
  obtain ⟨-, forest, ⟨bound, returned⟩, -, roots, arranged, -⟩ :=
    documentSymbols_forest range [f, x] nested
  have first : siblings (declared [f, x]).get none = [⟨0, by decide⟩] := by decide
  have below : siblings (declared [f, x]).get (some ⟨0, by decide⟩) = [⟨1, by decide⟩] := by
    decide
  have leaf : siblings (declared [f, x]).get (some ⟨1, by decide⟩) = [] := by decide
  rw [first] at roots
  obtain ⟨tree, rfl, isFirst⟩ := map_eq_singleton_iff.mp roots
  cases arranged tree mem_cons_self with
  | node ordered inner =>
    obtain rfl := isFirst
    rw [below] at ordered
    obtain ⟨child, rfl, isChild⟩ := map_eq_singleton_iff.mp ordered
    cases inner child mem_cons_self with
    | node inChild _ =>
      obtain rfl := isChild
      rw [leaf] at inChild
      obtain rfl := map_eq_nil_iff.mp inChild
      refine ⟨bound, fun fuel enough => ?_⟩
      rw [returned fuel enough]
      simp only [map_cons, map_nil, Rose.map]
      rfl

end Ferretd.Language

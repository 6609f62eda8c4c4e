import Mathlib.Data.List.Perm.Basic

/-!
# Forests of a parent function

Trees are built from their roots by an unguarded recursion over lists of children.  When a
rank grows from every index to its parent, the recursion ends, and every index labels
exactly one node.
-/

namespace Library

open List

inductive Rose (α : Type) where
  | node (value : α) (children : List (Rose α))

namespace Rose

variable {α β ι : Type} {indices : List ι}

def root : Rose α → α
  | node value _ => value

def map (f : α → β) : Rose α → Rose β
  | node value children => node (f value) (children.map fun child => child.map f)

/-- The values of all nodes, a node before its children. -/
def values : Rose α → List α
  | node value children => value :: children.flatMap fun child => child.values

/-- Below every node stand its children in the given order. -/
inductive Arranged (children : ι → List ι) : Rose ι → Prop
  | node {index trees} (ordered : trees.map root = children index)
      (below : ∀ tree ∈ trees, Arranged children tree) : Arranged children (node index trees)

/-- The recursion from `index`, which runs out of fuel on a cycle. -/
def build (value : ι → α) (children : ι → List ι) : Nat → ι → Option (Rose α)
  | 0, _ => none
  | fuel + 1, index => do
    let trees ← (children index).mapM (build value children fuel)
    return node (value index) trees

/-- The indices below `index`, to a depth. -/
def grow (children : ι → List ι) : Nat → ι → Rose ι
  | 0, index => node index []
  | depth + 1, index => node index ((children index).map (grow children depth))

theorem mapM_eq_some {f : ι → Option α} {g : ι → α}
    (each : ∀ index ∈ indices, f index = some (g index)) :
    indices.mapM f = some (indices.map g) := by
  induction indices with
  | nil => rfl
  | cons index rest ih =>
    rw [mapM_cons, each index mem_cons_self,
      ih fun other member => each other (mem_cons_of_mem index member)]
    rfl

theorem grow_root {children : ι → List ι} (depth : Nat) (index : ι) :
    (grow children depth index).root = index := by
  cases depth <;> rfl

/-- An index occurs where it is listed and below its parent. -/
theorem count_flatMap [DecidableEq ι] {parent : ι → Option ι} {labels : ι → List ι}
    {index : ι}
    (each : ∀ other ∈ indices, (labels other).count index = (if other = index then 1 else 0) +
      (parent index).elim 0 fun above => (labels other).count above) :
    (indices.flatMap labels).count index = indices.count index +
      (parent index).elim 0 fun above => (indices.flatMap labels).count above := by
  induction indices with
  | nil => cases parent index <;> rfl
  | cons other rest ih =>
    have first := each other mem_cons_self
    have later := ih fun other member => each other (mem_cons_of_mem _ member)
    simp only [flatMap_cons, count_append, count_cons, beq_iff_eq]
    cases above : parent index <;> simp only [above, Option.elim] at first later ⊢ <;> omega

section Ranked

variable {parent : ι → Option ι} {children : ι → List ι} {rank : ι → Nat} {index start : ι}
  {depth fuel : Nat} (ranked : ∀ index, ∀ child ∈ children index, rank child < rank index)
include ranked

/-- With fuel above the rank the recursion returns. -/
theorem build_eq_grow (value : ι → α) (deep : rank index < depth) (enough : depth ≤ fuel) :
    build value children fuel index = some ((grow children depth index).map value) := by
  induction depth generalizing index fuel with
  | zero => exact absurd deep (Nat.not_lt_zero _)
  | succ depth ih =>
    obtain ⟨fuel, rfl⟩ := Nat.exists_eq_add_of_le' (Nat.le_trans (Nat.le_add_left 1 depth) enough)
    have each : ∀ child ∈ children index, build value children fuel child =
        some ((grow children depth child).map value) := by
      intro child member
      have lower := ranked index child member
      exact ih (by omega) (by omega)
    rw [build, mapM_eq_some each, grow, map, map_map]
    rfl

theorem grow_arranged (deep : rank index < depth) :
    Arranged children (grow children depth index) := by
  induction depth generalizing index with
  | zero => exact absurd deep (Nat.not_lt_zero _)
  | succ depth ih =>
    refine .node ?_ ?_
    · rw [map_map]
      exact map_id'' (fun child => grow_root depth child) _
    · intro tree member
      obtain ⟨child, below, rfl⟩ := mem_map.mp member
      have lower := ranked index child below
      exact ih (by omega)

variable [DecidableEq ι] (siblings : ∀ index child,
  (children index).count child = if parent child = some index then 1 else 0)
include siblings

theorem count_grow (deep : rank start < depth) (index : ι) :
    (grow children depth start).values.count index = (if start = index then 1 else 0) +
      (parent index).elim 0 fun above => (grow children depth start).values.count above := by
  induction depth generalizing start index with
  | zero => exact absurd deep (Nat.not_lt_zero _)
  | succ depth ih =>
    have listed := count_flatMap fun child (member : child ∈ children start) =>
      ih (Nat.lt_of_lt_of_le (ranked start child member) (Nat.le_of_lt_succ deep)) index
    have sibling := siblings start index
    rw [grow, values, flatMap_map]
    cases above : parent index with
    | none =>
      rw [above] at listed sibling
      simp [listed, sibling, count_cons]
    | some other =>
      rw [above] at listed sibling
      simp only [Option.elim, Option.some.injEq, @eq_comm ι other start] at listed sibling ⊢
      simp only [count_cons, beq_iff_eq]
      omega

/-- Every index labels exactly one node of the trees grown from the roots. -/
theorem values_perm {order roots : List ι} (listed : ∀ index, order.count index = 1)
    (isRoot : ∀ index, roots.count index = if parent index = none then 1 else 0)
    (deep : ∀ index, rank index < depth) :
    (roots.flatMap fun index => (grow children depth index).values).Perm order := by
  refine perm_iff_count.mpr fun index => ?_
  rw [listed]
  -- towards the root the rank grows, and it is bounded by the depth
  induction rest : depth - rank index using Nat.strongRecOn generalizing index with
  | ind rest ih =>
    have counted := count_flatMap fun start (_ : start ∈ roots) =>
      count_grow ranked siblings (deep start) index
    rw [counted, isRoot]
    cases above : parent index with
    | none => rfl
    | some other =>
      have member : index ∈ children other := by
        rw [← count_pos_iff, siblings, if_pos above]
        exact Nat.one_pos
      have higher := ranked other index member
      have bounded := deep other
      simp only [Option.elim, reduceCtorEq, if_false, Nat.zero_add]
      exact ih _ (by omega) other rfl

end Ranked

end Library.Rose

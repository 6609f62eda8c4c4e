import Mathlib.Algebra.Ring.Nat
import Mathlib.Data.List.Basic

/-!
# Tallies over a pool

A pool is the list of the operations in flight on an object.  The tally of a weight over a
pool counts what its operations hold.
-/

namespace Library

open List

universe u

section Tally

variable {Member : Type u}

/-- The total weight of the members of a pool. -/
def tally (weight : Member → Nat) (pool : List Member) : Nat :=
  (pool.map weight).sum

variable {first second after fresh : Member} {weight : Member → Nat} {pool : List Member}

@[simp]
theorem tally_nil : tally weight [] = 0 :=
  rfl

@[simp]
theorem tally_cons (member : Member) :
    tally weight (member :: pool) = weight member + tally weight pool := by
  simp [tally]

@[simp]
theorem tally_concat (member : Member) :
    tally weight (pool ++ [member]) = tally weight pool + weight member := by
  simp [tally]

variable {index other : Nat} {before member : Member}

/-- A member moves from one control point to another. -/
theorem tally_set (weight : Member → Nat) (found : pool[index]? = some before) (after : Member) :
    tally weight (pool.set index after) + weight before = tally weight pool + weight after := by
  induction pool generalizing index with
  | nil => simp at found
  | cons _ _ ih =>
    cases index with
    | zero =>
      simp only [getElem?_cons_zero, Option.some.injEq] at found
      subst found
      simp only [set_cons_zero, tally_cons]
      omega
    | succ =>
      simp only [getElem?_cons_succ] at found
      have moved := ih found
      simp only [set_cons_succ, tally_cons]
      omega

/-- A member leaves. -/
theorem tally_eraseIdx (weight : Member → Nat) (found : pool[index]? = some before) :
    tally weight (pool.eraseIdx index) + weight before = tally weight pool := by
  induction pool generalizing index with
  | nil => simp at found
  | cons _ _ ih =>
    cases index with
    | zero =>
      simp only [getElem?_cons_zero, Option.some.injEq] at found
      subst found
      simp only [eraseIdx_cons_zero, tally_cons]
      omega
    | succ =>
      simp only [getElem?_cons_succ] at found
      have left := ih found
      simp only [eraseIdx_cons_succ, tally_cons]
      omega

theorem weight_le_tally (weight : Member → Nat) (present : member ∈ pool) :
    weight member ≤ tally weight pool := by
  induction pool with
  | nil => cases present
  | cons _ _ ih =>
    rw [tally_cons]
    rcases mem_cons.mp present with rfl | inTail
    · omega
    · have below := ih inTail
      omega

/-- Two members weigh no more than the pool. -/
theorem add_le_tally (weight : Member → Nat) (found : pool[index]? = some first)
    (located : pool[other]? = some second) (different : other ≠ index) :
    weight first + weight second ≤ tally weight pool := by
  have left := tally_eraseIdx weight found
  have stays : second ∈ pool.eraseIdx index :=
    mem_eraseIdx_iff_getElem?.mpr ⟨other, different, located⟩
  have below := weight_le_tally weight stays
  omega

theorem tally_eq_zero (none : ∀ member ∈ pool, weight member = 0) : tally weight pool = 0 := by
  induction pool with
  | nil => rfl
  | cons head _ ih =>
    rw [tally_cons, none head mem_cons_self, ih fun member present =>
        none member (mem_cons_of_mem head present)]

theorem exists_of_tally_ne_zero (some : tally weight pool ≠ 0) :
    ∃ member ∈ pool, weight member ≠ 0 := by
  by_contra none
  apply some
  apply tally_eq_zero
  intro member present
  by_contra positive
  exact none ⟨member, present, positive⟩

/-- What a pool holds after one of its members has moved. -/
theorem getElem?_set_cases (found : (pool.set index after)[other]? = some member) :
    other = index ∧ member = after ∨ other ≠ index ∧ pool[other]? = some member := by
  by_cases same : index = other
  · subst same
    rw [getElem?_set_self'] at found
    obtain ⟨before, _, rfl⟩ := Option.map_eq_some_iff.mp found
    exact .inl ⟨rfl, rfl⟩
  · rw [getElem?_set_ne same] at found
    exact .inr ⟨fun equal => same equal.symm, found⟩

/-- What a pool holds after a member has joined. -/
theorem getElem?_concat_cases (found : (pool ++ [fresh])[other]? = some member) :
    other = pool.length ∧ member = fresh ∨ pool[other]? = some member := by
  rcases Nat.lt_or_ge other pool.length with inside | outside
  · rw [getElem?_append_left inside] at found
    exact .inr found
  rw [getElem?_append_right outside] at found
  have last : other - pool.length = 0 := by
    have bound := (List.getElem?_eq_some_iff.mp found).1
    simpa using bound
  simp only [last, getElem?_cons_zero, Option.some.injEq] at found
  exact .inl ⟨by omega, found.symm⟩

/-- The others stay when one member moves. -/
theorem eq_or_mem_set (found : pool[index]? = some before) (present : member ∈ pool)
    (after : Member) : member = before ∨ member ∈ pool.set index after := by
  obtain ⟨pos, located⟩ := getElem?_of_mem present
  by_cases same : index = pos
  · subst same
    rw [found] at located
    cases located
    exact .inl rfl
  right
  apply mem_of_getElem?
  rw [getElem?_set_ne same]
  exact located

/-- The others stay when one member leaves. -/
theorem eq_or_mem_eraseIdx (found : pool[index]? = some before) (present : member ∈ pool) :
    member = before ∨ member ∈ pool.eraseIdx index := by
  obtain ⟨pos, located⟩ := getElem?_of_mem present
  by_cases same : pos = index
  · subst same
    rw [found] at located
    cases located
    exact .inl rfl
  · exact .inr (mem_eraseIdx_iff_getElem?.mpr ⟨pos, same, located⟩)

end Tally

end Library

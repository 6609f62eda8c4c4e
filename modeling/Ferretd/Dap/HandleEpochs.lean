import Ferretd.Dap.HandleTable

/-!
# Epochs of handles

What a lookup says of a handle after any history of operations.
-/

namespace Ferretd.Dap.HandleTable

open List

def Payload.kind : Payload → HandleKind
  | .frame _ => .frame
  | .scope _ => .scope
  | .reference _ => .variable

/-- `FrameIndex`, `ScopeVariables` and `VariableReference`. -/
def find (table : HandleTable) (handle : Int) : HandleKind → Payload × HandleStatus
  | .frame => (table.frameIndex handle).map .frame id
  | .scope => (table.scopeVariables handle).map .scope id
  | .variable => (table.variableReference handle).map .reference id

inductive Operation where
  | allocate (payload : Payload)
  | find (handle : Int) (kind : HandleKind)
  | invalidate

def perform (table : HandleTable) : Operation → HandleTable
  | .allocate payload => (table.allocate payload).2
  | .find _ _ => table
  | .invalidate => table.invalidate

/-- The table after a history of operations, the latest of which comes first. -/
def after : List Operation → HandleTable
  | [] => new
  | op :: past => (after past).perform op

/-- The handle that an operation gives, with what it is given for.  A reference of zero
has no handle. -/
def gives (past : List Operation) : Operation → List (Int × Payload)
  | .allocate payload =>
    if payload = .reference 0 then [] else [(((after past).allocate payload).1, payload)]
  | _ => []

def given : List Operation → List (Int × Payload)
  | [] => []
  | op :: past => gives past op ++ given past

/-- Those given since the last invalidation. -/
def recent : List Operation → List (Int × Payload)
  | [] | .invalidate :: _ => []
  | op :: past => gives past op ++ recent past

/-- Those of the interval ended by the latest invalidation that found a live handle. -/
def ended : List Operation → List (Int × Payload)
  | [] => []
  | .invalidate :: past => if recent past = [] then ended past else recent past
  | _ :: past => ended past

def stored (table : HandleTable) (handle : Int) : HandleKind → Option Payload
  | .frame => (table.frames.lookup handle).map .frame
  | .scope => (table.scopes.lookup handle).map .scope
  | .variable => (table.references.lookup handle).map .reference

section Table

variable {handles : List Int} {table : HandleTable} {payload : Payload} {handle : Int}
  {kind : HandleKind}

theorem find_eq : table.find handle kind = ((table.find handle kind).1,
    table.statusOf kind handle (table.stored handle kind).isSome) := by
  cases kind <;> simp [find, stored, frameIndex, scopeVariables, variableReference]

theorem find_payload (found : table.stored handle kind = some payload) :
    (table.find handle kind).1 = payload := by
  cases kind
  all_goals
    obtain ⟨value, at_, rfl⟩ := Option.map_eq_some_iff.mp found
    simp [find, frameIndex, scopeVariables, variableReference, at_]

theorem allocate_next (table : HandleTable) (expandable : payload ≠ .reference 0) :
    (table.allocate payload).1 = table.next ∧
      (table.allocate payload).2.next = table.next + 1 ∧
      (table.allocate payload).2.stale = table.stale := by
  unfold allocate
  split
  · exact ⟨rfl, rfl, rfl⟩
  · exact ⟨rfl, rfl, rfl⟩
  · exact absurd rfl expandable
  · exact ⟨rfl, rfl, rfl⟩

theorem stored_allocate (expandable : payload ≠ .reference 0) :
    (table.allocate payload).2.stored handle kind =
      if handle = table.next ∧ payload.kind = kind then some payload
      else table.stored handle kind := by
  unfold allocate
  by_cases same : handle = table.next
  · subst same
    split
    case h_3 => exact absurd rfl expandable
    all_goals cases kind <;> simp [stored, Payload.kind]
  · split
    case h_3 => exact absurd rfl expandable
    all_goals cases kind <;> simp [stored, same]

theorem stored_invalidate : table.invalidate.stored handle kind = none := by
  cases kind <;> rfl

theorem mark_lookup {stale : AList fun _ : Int => HandleKind} :
    (mark kind stale handles).lookup handle =
      if handle ∈ handles then some kind else stale.lookup handle := by
  induction handles generalizing stale with
  | nil => rfl
  | cons first rest ih =>
    rw [mark, ih]
    by_cases same : handle = first
    · rw [same]
      simp
    · simp [same]

theorem isSome_stored : (table.stored handle kind).isSome = true ↔ handle ∈ match kind with
      | .frame => table.frames.keys
      | .scope => table.scopes.keys
      | .variable => table.references.keys := by
  cases kind <;> simp [stored, AList.lookup_isSome, AList.mem_keys]

/-- An invalidation makes every live handle stale under its kind, where the kinds have no
handle in common. -/
theorem stale_invalidate (busy : table.live ≠ 0)
    (apart : ∀ {left right : HandleKind}, (table.stored handle left).isSome = true →
      (table.stored handle right).isSome = true → left = right) :
    table.invalidate.stale.lookup handle = some kind ↔
      (table.stored handle kind).isSome = true := by
  have marks : table.invalidate.stale.lookup handle =
      if (table.stored handle .variable).isSome = true then some .variable
      else if (table.stored handle .scope).isSome = true then some .scope
      else if (table.stored handle .frame).isSome = true then some .frame else none := by
    simp [isSome_stored, invalidate, if_neg busy, mark_lookup]
  constructor
  · intro found
    rw [marks] at found
    split at found
    · cases found
      assumption
    · split at found
      · cases found
        assumption
      · obtain ⟨isFrame, ⟨⟩⟩ := Option.ite_none_right_eq_some.mp found
        exact isFrame
  · intro found
    rw [marks]
    split
    next isVariable => rw [apart isVariable found]
    · split
      next isScope => rw [apart isScope found]
      · split
        next isFrame => rw [apart isFrame found]
        · cases kind <;> contradiction

theorem live_eq_zero :
    table.live = 0 ↔ ∀ handle kind, ¬ (table.stored handle kind).isSome = true := by
  simp only [live, Nat.add_eq_zero_iff, length_eq_zero_iff, eq_nil_iff_forall_not_mem]
  constructor
  · rintro ⟨⟨frames, scopes⟩, references⟩ handle kind
    rw [isSome_stored]
    cases kind
    · exact frames handle
    · exact scopes handle
    · exact references handle
  · intro none
    exact ⟨⟨fun handle found => none handle .frame (isSome_stored.mpr found),
      fun handle found => none handle .scope (isSome_stored.mpr found)⟩,
      fun handle found => none handle .variable (isSome_stored.mpr found)⟩

end Table

/-- What the table and the lists of handles have in common after a history. -/
structure Reflects (history : List Operation) : Prop where
  next : 0 < (after history).next
  below : ∀ entry ∈ given history, 0 < entry.1 ∧ entry.1 < (after history).next
  increasing : (given history).Pairwise fun later earlier => earlier.1 < later.1
  apart : (recent history ++ ended history).Sublist (given history)
  stored : ∀ handle kind payload, (after history).stored handle kind = some payload ↔
    payload.kind = kind ∧ (handle, payload) ∈ recent history
  stale : ∀ handle kind, (after history).stale.lookup handle = some kind ↔
    ∃ payload : Payload, payload.kind = kind ∧ (handle, payload) ∈ ended history

namespace Reflects

variable {past : List Operation}

section

variable {left right entry : Int × Payload} {handle : Int} {payload : Payload}
  (reflects : Reflects past)
include reflects

theorem distinct : ((recent past ++ ended past).map Prod.fst).Nodup := by
  rw [List.Nodup, pairwise_map]
  exact (reflects.increasing.sublist reflects.apart).imp (Int.ne_of_gt ·)

theorem unique (isLeft : left ∈ recent past ++ ended past)
    (isRight : right ∈ recent past ++ ended past) (same : left.1 = right.1) : left = right :=
  inj_on_of_nodup_map reflects.distinct isLeft isRight same

theorem recent_given (member : entry ∈ recent past) : entry ∈ given past :=
  reflects.apart.subset (mem_append_left _ member)

theorem isSome_iff {kind : HandleKind} :
    ((after past).stored handle kind).isSome = true ↔
      ∃ payload : Payload, payload.kind = kind ∧ (handle, payload) ∈ recent past := by
  rw [Option.isSome_iff_exists]
  exact exists_congr fun payload => reflects.stored handle kind payload

theorem idle_iff : (after past).live = 0 ↔ recent past = [] := by
  rw [live_eq_zero, eq_nil_iff_forall_not_mem]
  constructor
  · intro none entry member
    exact none entry.1 entry.2.kind (reflects.isSome_iff.mpr ⟨entry.2, rfl, member⟩)
  · intro none handle kind found
    obtain ⟨payload, -, member⟩ := reflects.isSome_iff.mp found
    exact none _ member

theorem invalidate : Reflects (.invalidate :: past) where
  next := reflects.next
  below := reflects.below
  increasing := reflects.increasing
  apart := by
    simp only [recent, ended, given, gives, nil_append]
    split
    · exact (sublist_append_right _ _).trans reflects.apart
    · exact (sublist_append_left _ _).trans reflects.apart
  stored handle kind payload := by
    simp only [after, perform, stored_invalidate, recent]
    simp
  stale handle kind := by
    simp only [after, perform, ended]
    split
    next idle =>
      rw [← reflects.stale]
      simp [HandleTable.invalidate, if_pos (reflects.idle_iff.mpr idle)]
    next busy =>
      rw [stale_invalidate (fun none => busy (reflects.idle_iff.mp none)), reflects.isSome_iff]
      intro left right isLeft isRight
      obtain ⟨first, rfl, foundLeft⟩ := reflects.isSome_iff.mp isLeft
      obtain ⟨second, rfl, foundRight⟩ := reflects.isSome_iff.mp isRight
      have same := reflects.unique (mem_append_left _ foundLeft)
        (mem_append_left _ foundRight) rfl
      cases same
      rfl

theorem allocate (expandable : payload ≠ .reference 0) : Reflects (.allocate payload :: past) := by
  obtain ⟨first, next, stale⟩ := allocate_next (after past) expandable
  have positive := reflects.next
  have gives : gives past (.allocate payload) = [((after past).next, payload)] := by
    rw [HandleTable.gives, if_neg expandable, first]
  constructor
  · simp only [after, perform, next]
    omega
  · intro entry member
    rw [given, gives, singleton_append, mem_cons] at member
    simp only [after, perform, next]
    rcases member with rfl | before
    · dsimp only
      omega
    · have below := reflects.below entry before
      omega
  · rw [given, gives, singleton_append, pairwise_cons]
    exact ⟨fun entry before => (reflects.below entry before).2, reflects.increasing⟩
  · rw [recent, given, ended, gives]
    · exact reflects.apart.cons_cons _
    all_goals simp
  · intro handle kind other
    simp only [after, perform, stored_allocate expandable, recent, gives,
      singleton_append, mem_cons, Prod.mk.injEq]
    split
    next here =>
      constructor
      · rintro ⟨⟩
        exact ⟨here.2, Or.inl ⟨here.1, rfl⟩⟩
      · rintro ⟨-, ⟨-, rfl⟩ | before⟩
        · rfl
        · have below := (reflects.below _ (reflects.recent_given before)).2
          exact absurd here.1 (Int.ne_of_lt below)
    next elsewhere =>
      rw [reflects.stored]
      constructor
      · rintro ⟨same, before⟩
        exact ⟨same, Or.inr before⟩
      · rintro ⟨rfl, ⟨rfl, rfl⟩ | before⟩
        · exact absurd ⟨rfl, rfl⟩ elsewhere
        · exact ⟨rfl, before⟩
  · intro handle kind
    simp only [after, perform, stale, ended]
    exact reflects.stale handle kind

end

end Reflects

theorem reflects (history : List Operation) : Reflects history := by
  induction history with
  | nil =>
    refine ⟨by decide, by simp [given], by simp [given], by simp [given, recent, ended], ?_, ?_⟩
    · intro handle kind payload
      cases kind <;> simp [after, new, stored, recent]
    · intro handle kind
      simp [after, new, ended]
  | cons op past ih =>
    cases op with
    | invalidate => exact ih.invalidate
    | find => exact ⟨ih.next, ih.below, ih.increasing, ih.apart, ih.stored, ih.stale⟩
    | allocate payload =>
      by_cases zero : payload = .reference 0
      · subst zero
        exact ⟨ih.next, ih.below, ih.increasing, ih.apart, ih.stored, ih.stale⟩
      · exact ih.allocate zero

/-- After every history of operations: the handles given are positive and increasing; a
lookup finds a handle, with the payload it was given for, exactly if it was given as this
kind since the last invalidation; it finds the handle stale exactly if it was given as
this kind in the interval ended by the latest invalidation that found a live handle; and
every other number is invalid. -/
theorem lookup_epochs (history : List Operation) :
    (∀ entry ∈ given history, 0 < entry.1) ∧
    (given history).Pairwise (fun later earlier => earlier.1 < later.1) ∧
    ∀ handle kind,
      (∀ payload, (after history).find handle kind = (payload, .current) ↔
        payload.kind = kind ∧ (handle, payload) ∈ recent history) ∧
      (((after history).find handle kind).2 = .stale ↔
        ∃ payload : Payload, payload.kind = kind ∧ (handle, payload) ∈ ended history) ∧
      (((after history).find handle kind).2 = .invalid ↔
        ∀ payload : Payload, payload.kind = kind →
          (handle, payload) ∉ recent history ∧ (handle, payload) ∉ ended history) := by
  have reflects := reflects history
  refine ⟨fun entry member => (reflects.below entry member).1, reflects.increasing, ?_⟩
  intro handle kind
  cases found : (after history).stored handle kind with
  | some payload =>
    obtain ⟨same, member⟩ := (reflects.stored handle kind payload).mp found
    have current : (after history).find handle kind = (payload, .current) := by
      rw [find_eq, find_payload found, found]
      rfl
    rw [current]
    refine ⟨?_, ?_, ?_⟩
    · intro other
      rw [← reflects.stored, found]
      simp
    · simp only [reduceCtorEq, false_iff, not_exists, not_and]
      intro other _ stale
      have apart := reflects.distinct
      rw [map_append] at apart
      exact disjoint_of_nodup_append apart (mem_map_of_mem member)
        (mem_map.mpr ⟨_, stale, rfl⟩)
    · simp only [reduceCtorEq, false_iff]
      exact fun none => (none payload same).1 member
  | none =>
    have notRecent : ∀ payload : Payload, payload.kind = kind →
        (handle, payload) ∉ recent history := by
      intro payload same member
      rw [(reflects.stored handle kind payload).mpr ⟨same, member⟩] at found
      cases found
    have status : ((after history).find handle kind).2 = if (after history).stale.lookup handle =
        some kind then .stale else .invalid := by
      rw [find_eq, found]
      rfl
    simp only [Prod.ext_iff, status]
    split
    next stale =>
      obtain ⟨payload, same, member⟩ := (reflects.stale handle kind).mp stale
      refine ⟨?_, ?_, ?_⟩
      · intro other
        simpa using notRecent other
      · simpa using ⟨payload, same, member⟩
      · simp only [reduceCtorEq, false_iff]
        exact fun none => (none payload same).2 member
    next notStale =>
      rw [reflects.stale] at notStale
      refine ⟨?_, ?_, ?_⟩
      · intro other
        simpa using notRecent other
      · simpa using notStale
      · simp only [true_iff]
        intro payload same
        exact ⟨notRecent payload same, fun member => notStale ⟨payload, same, member⟩⟩

end Ferretd.Dap.HandleTable

import Mathlib.Data.List.AList
import Ferretd.Debug.Inspection

/-!
# Handles

Numbers by which a client names frames, scopes and expandable values of one pause.  An
invalidation makes every live handle stale and forgets the handles that were stale
before, unless there was no live one.
-/

namespace Ferretd.Dap

inductive HandleStatus where
  | invalid
  | current
  | stale

inductive HandleKind where
  | frame
  | scope
  | variable
deriving DecidableEq

structure HandleTable where
  next : Int
  frames : AList fun _ : Int => Nat
  scopes : AList fun _ : Int => List Debug.Variable
  references : AList fun _ : Int => Nat
  stale : AList fun _ : Int => HandleKind

namespace HandleTable

/-- `newHandleTable`. -/
def new : HandleTable where
  next := 1
  frames := ∅
  scopes := ∅
  references := ∅
  stale := ∅

def live (table : HandleTable) : Nat :=
  table.frames.keys.length + table.scopes.keys.length + table.references.keys.length

/-- Mark a list of handles as stale handles of one kind. -/
def mark (kind : HandleKind) (stale : AList fun _ : Int => HandleKind) :
    List Int → AList fun _ : Int => HandleKind
  | [] => stale
  | handle :: rest => mark kind (stale.insert handle kind) rest

def invalidate (table : HandleTable) : HandleTable :=
  { table with
    frames := ∅
    scopes := ∅
    references := ∅
    stale :=
      if table.live = 0 then
        table.stale
      else
        mark .variable (mark .scope (mark .frame ∅ table.frames.keys) table.scopes.keys)
          table.references.keys }

inductive Payload where
  | frame (index : Nat)
  | scope (contents : List Debug.Variable)
  | reference (value : Nat)
deriving DecidableEq

section

variable (table : HandleTable)

/-- `Frame`, `Scope` and `Variable`: the handle given for a payload.  A reference of
zero is not expandable and has handle zero. -/
def allocate : Payload → Int × HandleTable
  | .frame index =>
    (table.next, { table with
      next := table.next + 1, frames := table.frames.insert table.next index })
  | .scope contents =>
    (table.next, { table with
      next := table.next + 1, scopes := table.scopes.insert table.next contents })
  | .reference 0 => (0, table)
  | .reference value =>
    (table.next, { table with
      next := table.next + 1, references := table.references.insert table.next value })

/-- The status of a handle, given whether a lookup has found it. -/
def statusOf (kind : HandleKind) (handle : Int) (live : Bool) :
    HandleStatus :=
  if live then
    .current
  else if table.stale.lookup handle = some kind then
    .stale
  else
    .invalid

section

variable (handle : Int)

def frameIndex : Nat × HandleStatus :=
  ((table.frames.lookup handle).getD 0,
    table.statusOf .frame handle (table.frames.lookup handle).isSome)

def scopeVariables :
    List Debug.Variable × HandleStatus :=
  ((table.scopes.lookup handle).getD [],
    table.statusOf .scope handle (table.scopes.lookup handle).isSome)

def variableReference : Nat × HandleStatus :=
  ((table.references.lookup handle).getD 0,
    table.statusOf .variable handle (table.references.lookup handle).isSome)

/-- The handle is live, as a handle of some kind. -/
def Live : Prop :=
  handle ∈ table.frames ∨ handle ∈ table.scopes ∨ handle ∈ table.references

theorem not_live_invalidate : ¬ table.invalidate.Live handle := by
  rintro (found | found | found)
  · exact AList.notMem_empty handle found
  · exact AList.notMem_empty handle found
  · exact AList.notMem_empty handle found

end

end

variable {payload : HandleTable.Payload} {handle : Int} {table : HandleTable}

theorem live_allocate (isLive : (table.allocate payload).2.Live handle) :
    table.Live handle ∨ handle = (table.allocate payload).1 := by
  cases payload with
  | frame =>
    rcases isLive with found | found | found
    · rcases (AList.mem_insert _).mp found with same | before
      · exact .inr same
      · exact .inl (.inl before)
    · exact .inl (.inr (.inl found))
    · exact .inl (.inr (.inr found))
  | scope =>
    rcases isLive with found | found | found
    · exact .inl (.inl found)
    · rcases (AList.mem_insert _).mp found with same | before
      · exact .inr same
      · exact .inl (.inr (.inl before))
    · exact .inl (.inr (.inr found))
  | reference value =>
    cases value with
    | zero => exact .inl isLive
    | succ =>
      rcases isLive with found | found | found
      · exact .inl (.inl found)
      · exact .inl (.inr (.inl found))
      · rcases (AList.mem_insert _).mp found with same | before
        · exact .inr same
        · exact .inl (.inr (.inr before))

theorem current_of_status {kind : HandleKind} {live : Bool}
    (isCurrent : table.statusOf kind handle live = .current) : live = true := by
  unfold statusOf at isCurrent
  split at isCurrent
  next isLive => exact isLive
  · split at isCurrent
    · cases isCurrent
    · cases isCurrent

end HandleTable

end Ferretd.Dap

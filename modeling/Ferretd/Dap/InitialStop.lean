import Mathlib.Data.List.Sort
import Ferretd.Dap.BreakpointIDs

/-!
# The initial stop

The adapter decides from the bound breakpoints of the last set installed before the start
whether the first stop is a breakpoint hit, an entry to show, or one to leave at once.
-/

namespace Ferretd.Dap

structure EntryBinding where
  id : Nat
  location : Debug.Location
deriving DecidableEq

structure InitialStop where
  bindings : List EntryBinding
  frozen : Bool
deriving DecidableEq

namespace InitialStop

def new : InitialStop :=
  ⟨[], false⟩

def replace (stop : InitialStop) (breakpoints : List Breakpoint) : InitialStop :=
  if stop.frozen then
    stop
  else
    { stop with
      bindings := (breakpoints.filter Breakpoint.bound).map fun breakpoint =>
        ⟨breakpoint.id, breakpoint.location⟩ }

/-- The loop of `resolve`: the native numbers bound at a location, one for each number
the client knows; `seen` are the client's numbers met so far. -/
def hitsAt (ids : BreakpointIDs) (location : Debug.Location) (seen : List Nat) :
    List EntryBinding → List Nat
  | [] => []
  | binding :: rest =>
    if binding.location = location ∧ ids.id binding.id ∉ seen then
      binding.id :: hitsAt ids location (ids.id binding.id :: seen) rest
    else
      hitsAt ids location seen rest

def resolve (stop : InitialStop) (snapshot : Debug.SessionSnapshot) (stopOnEntry : Bool)
    (ids : BreakpointIDs) : Debug.SessionSnapshot × Bool :=
  if snapshot.reason ≠ some .entry then
    (snapshot, false)
  else
    let hits :=
      if snapshot.hitBreakpointIDs = [] then
        (hitsAt ids snapshot.location [] stop.bindings).insertionSort (· ≤ ·)
      else
        snapshot.hitBreakpointIDs
    if hits ≠ [] then
      ({ snapshot with hitBreakpointIDs := hits, reason := some .breakpoint }, false)
    else
      (snapshot, !stopOnEntry)

end InitialStop

end Ferretd.Dap

import Mathlib.Data.List.Basic

/-!
# Error values

A Go `error` is modelled by the causes that `errors.Is` finds in it: `nil` is the
empty list, `errors.Join` is concatenation and wrapping with `%w` keeps the causes
of the wrapped error.  Errors of foreign code are `external`; whether such an error is
also a cancellation is a separate cause in the list.
-/

namespace Ferretd

/-- The sentinel errors of the daemon's packages, the two context errors, the errors of
the file system and of its watches that the source tells apart, errors made in place by
`errors.New`, and errors of foreign code. -/
inductive Cause where
  | contextCanceled
  | contextDeadlineExceeded
  | execClosed
  | execSessionNotFound
  | execSessionClosed
  | execExecutionNotFound
  | execExecutionRunning
  | execExecutionTerminal
  | execInvalidOptions
  | execWatcherLagged
  | execCompilationFailed
  | executionCancellationRequested
  | workspaceClosed
  | workspaceNotFound
  | workspaceDocumentNotFound
  | workspaceDocumentUnavailable
  | workspaceLoad
  | debugClosed
  | debugSessionNotFound
  | debugSessionRunning
  | debugSessionNotRunning
  | debugSessionNotStopped
  | debugSessionTerminal
  | debugWatcherLagged
  | notExist
  | permission
  | invalid
  | einval
  | nonExistentWatch
  | watchClosed
  | message (text : String)
  | external (code : Nat)
deriving DecidableEq

/-- The causes of an error value; `[]` is `nil`. -/
abbrev GoError := List Cause

namespace GoError

variable (left right : GoError)

def join : GoError :=
  left ++ right

variable (err : GoError)

def is (target : Cause) : Bool :=
  err.contains target

/-- The test `errors.Is(err, context.Canceled) || errors.Is(err, context.DeadlineExceeded)`. -/
def isContext : Bool :=
  err.is .contextCanceled || err.is .contextDeadlineExceeded

/-- `errorOnlyMatches`: every leaf of the error is the target. -/
def onlyMatches (target : Cause) : Bool :=
  !err.isEmpty && err.all (· == target)

def isOnlyNotExist : Bool :=
  err.onlyMatches .notExist

theorem subset_join_left : left ⊆ join left right :=
  List.subset_append_left left right

theorem subset_join_right : right ⊆ join left right :=
  List.subset_append_right left right

end GoError

end Ferretd

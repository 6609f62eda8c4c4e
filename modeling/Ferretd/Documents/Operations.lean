import Ferretd.Documents.Store
import Ferretd.Documents.Watch
import Ferretd.Library.Program

/-!
# The operations of the workspace code

The functions of the loader and of the reconciliation are programs over these
operations.  Each is one system call or one critical section, and everything else may
happen between two of them.
-/

namespace Ferretd.Documents

open Library

inductive Op where
  | ctxErr
  | openRoot
  | closeRoot
  | readDir (dir : Key)
  | lstat (key : Key)
  | openFile (key : Key)
  | handleInfo (handle : Handle)
  | readAll (handle : Handle)
  | readFile (key : Key)
  | lstatAbsolute (key : Key)
  /-- `registration.observe` or `AddDirectory` -/
  | observe (dir : Key)
  | beginMutation
  /-- whether there is a watcher, and whether the key is an admitted explicit path -/
  | lookup (key : Key)
  /-- whether there is a watcher, and the explicit paths of the subtree -/
  | selections (subtree : Key)
  | commitDocument (key : Key) (explicit admitted : Bool) (discovered : Option Document)
  | commitTree (subtree : Key) (content : WorkspaceContent)
  /-- `registration.finish` -/
  | finishRegistration
  | replaceSubtree (subtree : Key) (directories : List Key)
  | watchesSubtree (subtree : Key)
  /-- the recursion goes deeper than the model follows it; there is no answer -/
  | diverge

abbrev Op.Answer : Op → Type
  | .ctxErr | .openRoot | .closeRoot | .observe _ | .beginMutation | .commitTree _ _
  | .finishRegistration | .replaceSubtree _ _ => GoError
  | .readDir _ => Except GoError Listing
  | .lstat _ | .handleInfo _ | .lstatAbsolute _ => Except GoError FileInfo
  | .openFile _ => Except GoError Handle
  | .readAll _ | .readFile _ => Except GoError Content
  | .lookup _ => Bool × Bool
  | .selections _ => Bool × List Key
  | .commitDocument _ _ _ _ => Except GoError (Option Document)
  | .watchesSubtree _ => Bool
  | .diverge => Empty

/-- A function of the source: it returns a value or an error. -/
abbrev Code := ExceptT GoError (Program Op Op.Answer)

def ask (op : Op) : Code op.Answer :=
  ExceptT.lift (Program.ask op)

/-- `if err != nil { return err }`. -/
def check (err : GoError) : Code Unit :=
  if err = [] then pure () else throw err

/-- `if err := ctx.Err(); err != nil { return err }`. -/
def checkContext : Code Unit := do
  check (← ask .ctxErr)

def observe (watching : Bool) (dir : Key) : Code GoError :=
  if watching then ask (.observe dir) else pure []

def workspacePathMissing (key : Key) (err : GoError) : Code Bool := do
  if err.isOnlyNotExist then
    return true
  else if !err.onlyMatches .permission then
    return false
  else
    match ← ask (.readDir (keyDir key)) with
    | .error readErr => return readErr.isOnlyNotExist
    | .ok listing => return !listing.entries.any fun entry => some entry.name == keyBase key

end Ferretd.Documents

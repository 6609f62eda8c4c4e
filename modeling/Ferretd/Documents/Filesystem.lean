import Ferretd.Errors
import Ferretd.Documents.Path

/-!
# What the source asks of the file system

The operations of `os`, `os.Root` and `fsnotify` that the workspace uses, as the
answers they would give at one moment.  Between two operations the answers may change.
-/

namespace Ferretd.Documents

/-- What `os.SameFile` compares. -/
abbrev Identity := Nat

inductive Kind where
  | directory
  | regular
  | symlink
  | other
deriving DecidableEq

structure FileInfo where
  kind : Kind
  identity : Identity

structure DirEntry where
  name : Name
  kind : Kind

/-- The result of `fs.ReadDir`: the entries in the order of their names, which are
distinct. -/
structure Listing where
  entries : List DirEntry
  sorted : entries.Pairwise fun left right => left.name.text < right.name.text

def containsGoModule (listing : Listing) : Bool :=
  listing.entries.any fun entry =>
    entry.name == goMod && entry.kind != .directory && entry.kind != .symlink

abbrev Content := Text

structure Handle where
  key : Key
  identity : Identity

/-- The answers of the file system at one moment, with the error that a test of `ctx`
would read. -/
structure Environment where
  ctxErr : GoError
  openRoot : GoError
  closeRoot : GoError
  readDir : Key → Except GoError Listing
  lstat : Key → Except GoError FileInfo
  openFile : Key → Except GoError Handle
  handleInfo : Handle → Except GoError FileInfo
  readAll : Handle → Except GoError Content
  readFile : Key → Except GoError Content
  lstatAbsolute : Key → Except GoError FileInfo
  /-- `watcherDirectoryInfo` before and after the call of `backend.Add`. -/
  directoryInfo : Key → Except GoError Identity
  directoryInfoAfter : Key → Except GoError Identity
  backendAdd : Key → GoError
  backendRemove : Key → GoError

end Ferretd.Documents

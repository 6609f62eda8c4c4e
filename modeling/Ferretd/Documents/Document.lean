import Ferretd.Documents.Filesystem
import Mathlib.Data.List.AList

/-!
# Documents

A retained source file.  The parser is foreign: it gives the diagnostics of a text.
-/

namespace Ferretd.Documents

/-- What a workspace does not choose: its absolute root, the escaping of a path in a
URI, the diagnostics of the parser, and whether the daemon runs on Linux. -/
structure Site where
  root : Key
  escape : Text → Text
  parse : Text → Content → List Nat
  linux : Bool

structure File where
  relativePath : Key
  path : Text
  uri : Text
deriving DecidableEq

variable (site : Site)

def uriFromPath (path : Text) : Except GoError Text :=
  if path = [] then
    .error [.message "path is empty"]
  else
    .ok ("file://".toList ++ site.escape path)

/-- The file that both the loader and a refresh make of a key. -/
def newFile (key : Key) : Except GoError File :=
  let absolute := absoluteText (site.root ++ key)
  match uriFromPath site absolute with
  | .error err => .error err
  | .ok uri => .ok ⟨key, absolute, uri⟩

def fileOf (key : Key) : File :=
  ⟨key, absoluteText (site.root ++ key),
    "file://".toList ++ site.escape (absoluteText (site.root ++ key))⟩

theorem newFile_eq (key : Key) : newFile site key = .ok (fileOf site key) := by
  have nonempty : absoluteText (site.root ++ key) ≠ [] := by
    unfold absoluteText
    split <;> simp
  simp [newFile, uriFromPath, nonempty, fileOf]

/-- Where loading a source failed; it is the first word of the diagnostic's text. -/
inductive LoadOperation where
  | read
  | open_
  | inspectOpen
  | inspect
deriving DecidableEq

/-- A diagnostic of a document: a load failure, told apart by its error text, or one of
the parser. -/
inductive Diagnostic where
  | load (op : LoadOperation) (key : Key) (err : GoError)
  | parse (code : Nat)
deriving DecidableEq

structure Document where
  file : File
  revision : Nat
  generation : Nat
  loaded : Bool
  content : Content
  diagnostics : List Diagnostic
deriving DecidableEq

instance : Inhabited Document :=
  ⟨⟨⟨[], [], []⟩, 0, 0, false, [], []⟩⟩

def newDocument (file : File) (content : Content) : Document where
  file := file
  revision := 1
  generation := 0
  loaded := true
  content := content
  diagnostics := (site.parse file.path content).map .parse

def newUnreadableDocument (file : File) (op : LoadOperation) (err : GoError) :
    Document where
  file := file
  revision := 1
  generation := 0
  loaded := false
  content := []
  diagnostics := [.load op file.relativePath err]

namespace Document

variable (doc : Document)

def withRevision (revision : Nat) : Document :=
  { doc with revision := revision }

def withGeneration (generation : Nat) : Document :=
  { doc with generation := generation }

def sameState (doc other : Document) : Bool :=
  decide (doc.file = other.file) && decide (doc.loaded = other.loaded) &&
    decide (doc.content = other.content) &&
    decide (doc.diagnostics = other.diagnostics)

/-- What the file system decides of a document. -/
structure Reading where
  file : File
  loaded : Bool
  content : Content
  diagnostics : List Diagnostic
deriving DecidableEq

def reading : Reading :=
  ⟨doc.file, doc.loaded, doc.content, doc.diagnostics⟩

theorem sameState_iff {doc other : Document} :
    doc.sameState other = true ↔ doc.reading = other.reading := by
  simp [sameState, reading, and_assoc]

end Document

end Ferretd.Documents

import Ferretd.Documents.Operations

/-!
# Loading

`loadWorkspace` and `loadWorkspaceSubtree`: a walk that lists and watches directories and
collects the source files, and then the reading of those files.
-/

namespace Ferretd.Documents

open Library

variable (site : Site)

/-- What a walk has collected: source files and listed directories. -/
structure Found where
  files : List File
  directories : List Key

def Found.none : Found :=
  ⟨[], []⟩

def Found.append (first second : Found) : Found :=
  ⟨first.files ++ second.files, first.directories ++ second.directories⟩

def visitEntry (walkChild : Key → Code Found) (dir : Key) (entry : DirEntry) :
    Code Found :=
  let child := dir ++ [entry.name]
  if entry.kind = .symlink then
    pure .none
  else if entry.kind = .directory then
    if isExcludedDirectory entry.name then pure .none else walkChild child
  else if !isWorkspaceSource entry.name then
    pure .none
  else do
    -- `entry.Info()`
    match ← ask (.lstat child) with
    | .error err => throw err
    | .ok info =>
      if info.kind ≠ .regular then
        return .none
      else
        match newFile site child with
        | .error err => throw err
        | .ok file => return ⟨[file], []⟩

/-- The loop of `walk` over the entries of a directory. -/
def walkEntries (walkChild : Key → Code Found) (dir : Key) :
    List DirEntry → Code Found
  | [] => pure .none
  | entry :: rest => do
      checkContext
      let found ← visitEntry site walkChild dir entry
      let others ← walkEntries walkChild dir rest
      return found.append others

def walk (watching : Bool) : Nat → Key → Bool → Code Found
  | 0, _, _ => do
      let impossible ← ask .diverge
      nomatch impossible
  | fuel + 1, relativePath, selectedRoot => do
      checkContext
      match ← ask (.readDir relativePath) with
      | .error err =>
        if selectedRoot then
          throw err
        else if ← workspacePathMissing relativePath err then
          checkContext
          return .none
        else
          throw err
      | .ok listing =>
        let err ← observe watching relativePath
        if err ≠ [] then
          if !selectedRoot && err.isOnlyNotExist then
            checkContext
            return .none
          else
            throw err
        else if !selectedRoot && containsGoModule listing then
          return ⟨[], [relativePath]⟩
        else
          let found ← walkEntries site (walk watching fuel · false) relativePath listing.entries
          return Found.append ⟨[], [relativePath]⟩ found

variable (watching : Bool)

variable (fuel : Nat)

def discoverFiles (start : Key) : Code Found := do
  let selectedRoot := decide (start = [])
  if !selectedRoot && (keyBase start).any isExcludedDirectory then
    return .none
  else
    let found ← walk site watching fuel start selectedRoot
    return { found with
      files := found.files.insertionSort fun left right =>
        pathText left.relativePath ≤ pathText right.relativePath }

/-- The body of the reading loop of `loadWorkspaceTreeFS`. -/
def readDocument (file : File) : Code Document := do
  match ← ask (.readFile file.relativePath) with
  | .error err => return newUnreadableDocument file .read err
  | .ok bytes =>
    checkContext
    return newDocument site file bytes

/-- The reading loop of `loadWorkspaceTreeFS`. -/
def readFiles : List File → WorkspaceContent → Code WorkspaceContent
  | [], content => pure content
  | file :: rest, content => do
      checkContext
      let doc ← readDocument site file
      readFiles rest { content with
          documents := content.documents.insert file.relativePath doc
          order := content.order ++ [file.relativePath] }

/-- `loadWorkspaceTreeFS`. -/
def loadWorkspaceTree (start : Key) :
    Code WorkspaceContent := do
  let found ← discoverFiles site watching fuel start
  readFiles site found.files ⟨found.files, ∅, [], found.directories⟩

/-- Close the root after the code that uses it, and join the two errors. -/
def closeAfter {Value : Type} (code : Code Value) : Code Value := do
  let result ← attempt code
  let closeErr ← ask .closeRoot
  match result with
  | .error err => throw (err.join closeErr)
  | .ok value =>
    check closeErr
    return value

def loadWorkspace : Code WorkspaceContent := do
  check (← ask .openRoot)
  closeAfter (loadWorkspaceTree site watching fuel [])

/-- `validateWorkspaceDirectory`, from the directory `current` on. -/
def validateWorkspaceDirectory (current : Key) : List Name → Code Bool
  | [] => pure true
  | component :: rest => do
      let next := current ++ [component]
      if isExcludedDirectory component then
        return false
      else
        match ← ask (.lstat next) with
        | .error err =>
          if ← workspacePathMissing next err then
            return false
          else
            throw err
        | .ok info =>
          if info.kind ≠ .directory then
            return false
          else if rest.isEmpty then
            return true
          else
            match ← ask (.readDir next) with
            | .error err =>
              if ← workspacePathMissing next err then
                return false
              else
                throw err
            | .ok listing =>
              if containsGoModule listing then
                return false
              else
                validateWorkspaceDirectory next rest

/-- The load of an eligible subtree; one that has disappeared is empty. -/
def loadEligibleSubtree (key : Key) :
    Code WorkspaceContent := do
  match ← attempt (loadWorkspaceTree site watching fuel key) with
  | .ok content => return content
  | .error err =>
    if key ≠ [] ∧ err.isOnlyNotExist = true then
      checkContext
      return .empty
    else
      throw err

/-- `loadWorkspaceSubtree` of a normalized key.  An error of the validation is returned
without the error of closing the root. -/
def loadWorkspaceSubtree (key : Key) :
    Code WorkspaceContent := do
  check (← ask .openRoot)
  if key = [] then
    closeAfter (loadEligibleSubtree site watching fuel key)
  else
    match ← attempt (validateWorkspaceDirectory [] key) with
    | .error err =>
      let _ ← ask .closeRoot
      throw err
    | .ok false =>
      check (← ask .closeRoot)
      return .empty
    | .ok true => closeAfter (loadEligibleSubtree site watching fuel key)

end Ferretd.Documents

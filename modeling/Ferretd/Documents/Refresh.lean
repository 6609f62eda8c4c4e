import Ferretd.Documents.Loader

/-!
# Reconciliation

`RefreshDocument`, `reconcileDocument`, `reconcileTree` and `reconcileWatchEvent`, with
the discovery of a single document.
-/

namespace Ferretd.Documents

open Library

variable (site : Site)

/-! ## One document -/

/-- `discoveredDocument`; `document` is set when `found`. -/
structure DiscoveredDocument where
  document : Option Document
  directories : List Key

def DiscoveredDocument.missing (directories : List Key) : DiscoveredDocument :=
  ⟨none, directories⟩

/-- The loop of `validateDocumentAncestors`; `directories` are those passed so far. -/
def validateComponents (watching explicit : Bool) (current : Key) (directories : List Key) :
    List Name → Code (List Key × Bool)
  | [] => pure (directories, true)
  | component :: rest => do
      let next := current ++ [component]
      let passed := directories ++ [next]
      checkContext
      if !explicit && isExcludedDirectory component then
        return (directories, false)
      else
        match ← ask (.lstat next) with
        | .error err =>
          if ← workspacePathMissing next err then
            return (directories, false)
          else
            throw err
        | .ok info =>
          if info.kind ≠ .directory then
            return (directories, false)
          else
            let err ← observe watching next
            if err ≠ [] then
              if err.isOnlyNotExist then
                return (directories, false)
              else
                throw err
            else if explicit then
              validateComponents watching explicit next passed rest
            else
              match ← ask (.readDir next) with
              | .error err =>
                if ← workspacePathMissing next err then
                  return (passed, false)
                else
                  throw err
              | .ok listing =>
                if containsGoModule listing then
                  return (passed, false)
                else
                  validateComponents watching explicit next passed rest

section

variable (watching explicit : Bool)

def validateDocumentAncestors (key : Key) :
    Code (List Key × Bool) := do
  check (← observe watching [])
  validateComponents watching explicit [] [[]] (keyDir key)

def readDiscoveredDocument (file : File) (pathInfo : FileInfo) : Code (Option Document) := do
  let key := file.relativePath
  match ← ask (.openFile key) with
  | .error err =>
    if ← workspacePathMissing key err then
      return none
    else
      return some (newUnreadableDocument file .open_ err)
  | .ok handle =>
    match ← ask (.handleInfo handle) with
    | .error err => return some (newUnreadableDocument file .inspectOpen err)
    | .ok openedInfo =>
      match ← ask (.lstat key) with
      | .error err =>
        if ← workspacePathMissing key err then
          return none
        else
          return some (newUnreadableDocument file .inspect err)
      | .ok currentInfo =>
        if currentInfo.kind ≠ .regular ∨ openedInfo.kind ≠ .regular ∨
            openedInfo.identity ≠ currentInfo.identity ∨
            pathInfo.identity ≠ currentInfo.identity then
          return none
        else
          match ← ask (.readAll handle) with
          | .error err => return some (newUnreadableDocument file .read err)
          | .ok bytes =>
            checkContext
            return some (newDocument site file bytes)

def discoverWorkspaceDocumentRoot (key : Key) :
    Code DiscoveredDocument := do
  checkContext
  if !isSourceKey key then
    return .missing []
  else
    let (directories, eligible) ← validateDocumentAncestors watching explicit key
    if !eligible then
      return .missing directories
    else
      match ← ask (.lstat key) with
      | .error err =>
        if ← workspacePathMissing key err then
          return .missing directories
        else
          throw err
      | .ok pathInfo =>
        if pathInfo.kind ≠ .regular then
          return .missing directories
        else
          match newFile site key with
          | .error err => throw err
          | .ok file =>
            let doc ← readDiscoveredDocument site file pathInfo
            return ⟨doc, directories⟩

def discoverWorkspaceDocument (key : Key) :
    Code DiscoveredDocument := do
  check (← ask .openRoot)
  closeAfter (discoverWorkspaceDocumentRoot site watching explicit key)

end

/-! ## Reconciliation -/

/-- The deferred `registration.finish`. -/
def finishing {Value : Type} (code : Code Value) : Code Value := do
  let result ← attempt code
  let finishErr ← ask .finishRegistration
  match result with
  | .error err => throw (err.join finishErr)
  | .ok value =>
    check finishErr
    return value

def reconcileDocument (relativePath : Text) (explicit : Bool) : Code (Option Document) := do
  check (← ask .beginMutation)
  match normalizeDocumentPath relativePath with
  | none => return none
  | some key =>
    let (watching, admitted) ← ask (.lookup key)
    finishing do
      let discovered ← discoverWorkspaceDocument site watching (explicit || admitted) key
      checkContext
      match ← ask (.commitDocument key explicit admitted discovered.document) with
      | .error err => throw err
      | .ok doc => return doc

def refreshDocument (relativePath : Text) : Code (Option Document) := do
  match ← reconcileDocument site relativePath true with
  | none => throw [.workspaceDocumentNotFound]
  | some doc => return some doc

/-- The loop of `reconcileExplicitPaths`. -/
def reconcileExplicitPaths (watching : Bool) :
    List Key → WorkspaceContent → Code WorkspaceContent
  | [], content => pure content
  | key :: rest, content => do
      if (content.documents.lookup key).isSome then
        reconcileExplicitPaths watching rest content
      else
        let discovered ← discoverWorkspaceDocument site watching true key
        let extended := { content with
          directories := content.directories ++ discovered.directories }
        match discovered.document with
        | none => reconcileExplicitPaths watching rest extended
        | some doc =>
          reconcileExplicitPaths watching rest { extended with
              documents := extended.documents.insert key doc
              order := extended.order ++ [key] }

/-- `reconcileTree` of a normalized key, up to the critical section. -/
def reconcileContent (watching : Bool) (fuel : Nat) (key : Key) (explicitPaths : List Key) :
    Code WorkspaceContent := do
  let content ← loadWorkspaceSubtree site watching fuel key
  let extended ← reconcileExplicitPaths site watching explicitPaths content
  checkContext
  return { extended with order := sortKeys extended.order }

def reconcileTree (fuel : Nat) (relativePath : Text) : Code (Option Document) := do
  check (← ask .beginMutation)
  match normalizeWorkspacePath relativePath with
  | none => return none
  | some key =>
    let (watching, explicitPaths) ← ask (.selections key)
    finishing do
      let content ← reconcileContent site watching fuel key explicitPaths
      check (← ask (.commitTree key content))
      if watching then
        let err ← ask (.replaceSubtree key content.directories)
        if err ≠ [] ∧ err.is .workspaceClosed = false then
          throw err
        else
          return none
      else
        return none

/-- `reconcileWatchEvent`; `rename` says whether the event is a rename. -/
def reconcileWatchEvent (fuel : Nat) (rename : Bool) (relativePath : Text) :
    Code (Option Document) := do
  match normalizeWorkspacePath relativePath with
  | none => return none
  | some key =>
    match keyBase key with
    | none => reconcileTree site fuel (pathText key)
    | some base =>
      if base = goMod then
        reconcileTree site fuel (pathText (keyDir key))
      else if rename then
        reconcileTree site fuel (pathText (keyDir key))
      else if isWorkspaceSource base then
        reconcileDocument site (pathText key) false
      else
        match ← ask (.lstatAbsolute key) with
        | .ok info =>
          if info.kind = .directory then
            reconcileTree site fuel (pathText key)
          else if ← ask (.watchesSubtree key) then
            reconcileTree site fuel (pathText key)
          else
            return none
        | .error err =>
          if !err.is .notExist then
            throw err
          else if ← ask (.watchesSubtree key) then
            reconcileTree site fuel (pathText key)
          else
            return none

end Ferretd.Documents

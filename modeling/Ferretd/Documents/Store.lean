import Ferretd.Documents.Document
import Ferretd.Workspace.Manager
import Mathlib.Data.List.Sort

/-!
# The retained documents of a workspace

The part of a `Workspace` that its lock protects, and the critical sections that change
it.
-/

namespace Ferretd.Documents

open Workspaces (State)

abbrev DocumentMap := AList fun _ : Key => Document

structure WorkspaceContent where
  files : List File
  documents : DocumentMap
  order : List Key
  directories : List Key

/-- `workspaceContent{documents: make(map[string]Document)}`. -/
def WorkspaceContent.empty : WorkspaceContent :=
  ⟨[], ∅, [], []⟩

/-- `sort.Strings`. -/
def sortKeys (keys : List Key) : List Key :=
  keys.insertionSort fun left right => pathText left ≤ pathText right

/-- What `mu` protects in a `Workspace`, with the flag `closing`.  `watching` says
whether `watcher` is set. -/
structure Store where
  state : State
  closing : Bool
  watching : Bool
  documents : DocumentMap
  order : List Key
  files : List File
  explicitPaths : List Key
  nextDocumentGeneration : Nat

namespace Store

/-- `newWorkspace`. -/
def new : Store where
  state := .opening
  closing := false
  watching := false
  documents := ∅
  order := []
  files := []
  explicitPaths := []
  nextDocumentGeneration := 0

/-- The documents of a load with their first generations. -/
def stamp (documents : DocumentMap) (generation : Nat) : List Key → DocumentMap × Nat
  | [] => (documents, generation)
  | key :: rest =>
    let doc := (documents.lookup key).getD default
    stamp (documents.insert key (doc.withGeneration (generation + 1))) (generation + 1) rest

section

variable (store : Store)

def setReady (content : WorkspaceContent) : Store :=
  let stamped := stamp content.documents store.nextDocumentGeneration content.order
  { store with
    files := content.files
    documents := stamped.1
    order := content.order
    watching := true
    state := .ready
    nextDocumentGeneration := stamped.2 }

def setFailed : Store :=
  { store with
    files := []
    documents := ∅
    explicitPaths := []
    order := []
    watching := false
    state := .failed }

def markClosing : Store :=
  { store with closing := true }

def close : Store :=
  if store.state = .closed then
    store
  else
    { store with
      state := .closed
      watching := false
      documents := ∅
      order := []
      files := []
      explicitPaths := []
      nextDocumentGeneration := 0 }

/-- `rebuildIndexesLocked`. -/
def rebuildIndexes : Store :=
  let order := sortKeys store.documents.keys
  { store with
    order := order
    files := order.map fun key => ((store.documents.lookup key).getD default).file }

/-- A document that replaces or joins the retained ones. -/
def retain (key : Key) (next : Document) : Store :=
  let generation := store.nextDocumentGeneration + 1
  { store with
    nextDocumentGeneration := generation
    documents := store.documents.insert key (next.withGeneration generation) }

/-- The successor of a retained document that reconciliation has found changed. -/
def successor (current : Option Document) (next : Document) : Document :=
  match current with
  | some current => next.withRevision (current.revision + 1)
  | none => next

/-- `w.explicitPaths[key] = struct{}{}`. -/
def enroll (key : Key) : Store :=
  if key ∈ store.explicitPaths then
    store
  else
    { store with explicitPaths := store.explicitPaths ++ [key] }

/-- The end of the critical section of `reconcileDocument`; the flag is
`registration.committed`. -/
def commitDocument (key : Key) (explicit admitted : Bool)
    (discovered : Option Document) : Store × Bool × Option Document :=
  let current := store.documents.lookup key
  match discovered with
  | none =>
    let removed :=
      if current.isSome then
        rebuildIndexes { store with documents := store.documents.erase key }
      else
        store
    (removed, !explicit || admitted, none)
  | some next =>
    let admitting := if explicit then store.enroll key else store
    match current with
    | some retained =>
      if retained.sameState next then
        (admitting, true, some retained)
      else
        let changed := admitting.retain key (successor current next)
        (changed, true, changed.documents.lookup key)
    | none =>
      let changed := (admitting.retain key next).rebuildIndexes
      (changed, true, changed.documents.lookup key)

end

/-- The first loop of `applyContentLocked`; the flag is `changedMembership`. -/
def dropMissing (subtree : Key) (found : DocumentMap) :
    List Key → Store × Bool → Store × Bool
  | [], result => result
  | key :: rest, (store, changedMembership) =>
    if workspacePathInSubtree key subtree && !(found.lookup key).isSome then
      dropMissing subtree found rest ({ store with documents := store.documents.erase key }, true)
    else
      dropMissing subtree found rest (store, changedMembership)

/-- The second loop of `applyContentLocked`. -/
def retainAll (found : DocumentMap) : List Key → Store × Bool → Store × Bool
  | [], result => result
  | key :: rest, (store, changedMembership) =>
    let next := (found.lookup key).getD default
    match store.documents.lookup key with
    | some current =>
      if current.sameState next then
        retainAll found rest (store, changedMembership)
      else
        retainAll found rest (store.retain key (successor (some current) next), changedMembership)
    | none => retainAll found rest (store.retain key next, true)

/-- The two loops of `applyContentLocked`. -/
def applyLoops (store : Store) (subtree : Key) (content : WorkspaceContent) : Store × Bool :=
  retainAll content.documents content.order
    (dropMissing subtree content.documents store.documents.keys (store, false))

/-- `applyContentLocked`. -/
def applyContent (store : Store) (subtree : Key) (content : WorkspaceContent) : Store :=
  let (applied, changedMembership) := store.applyLoops subtree content
  if changedMembership then applied.rebuildIndexes else applied

end Store

end Ferretd.Documents

import Ferretd.Documents.Document

/-!
# The watches of a workspace

`workspaceWatcher` as a set of watched directories with the identity each had when its
watch was added.  Directories are named relative to the root.  Every function here is
one critical section of the watcher's lock, and takes the answers of the file system and
of `fsnotify` from its moment.
-/

namespace Ferretd.Documents

structure Watch where
  watched : AList fun _ : Key => Identity
  closed : Bool

namespace Watch

/-- `newWorkspaceWatcher`. -/
def new : Watch :=
  ⟨∅, false⟩

variable (site : Site)

/-- The removal errors that `removeDirectoryLocked` reports. -/
def removalError (err : GoError) : GoError :=
  if err.is .nonExistentWatch || err.is .watchClosed || err.isOnlyNotExist ||
      (site.linux && err.onlyMatches .einval) then
    []
  else
    err

variable (env : Environment)

/-- `removeDirectoryLocked`. -/
def removeDirectory (watch : Watch)
    (dir : Key) : GoError × Watch :=
  (removalError site (env.backendRemove dir),
    { watch with watched := watch.watched.erase dir })

/-- `addDirectory` from the call of `backend.Add` on. -/
def install (watch : Watch) (dir : Key)
    (info : Identity) : (Bool × GoError) × Watch :=
  if env.backendAdd dir ≠ [] then
    ((false, env.backendAdd dir), watch)
  else
    let removed := watch.removeDirectory site env dir
    match env.directoryInfoAfter dir with
    | .error err => ((false, err.join removed.1), removed.2)
    | .ok current =>
      if current ≠ info then
        ((false, GoError.join [.message "directory changed while adding watch"] removed.1),
          removed.2)
      else
        ((true, []), { watch with watched := watch.watched.insert dir current })

/-- `addDirectory`: whether a watch was installed, and the error. -/
def addDirectory (watch : Watch)
    (dir : Key) : (Bool × GoError) × Watch :=
  if watch.closed then
    ((false, [.workspaceClosed]), watch)
  else
    match env.directoryInfo dir with
    | .error err => ((false, err), watch)
    | .ok info =>
      match watch.watched.lookup dir with
      | none => watch.install site env dir info
      | some previous =>
        if previous = info then
          ((false, []), watch)
        else
          let removed := watch.removeDirectory site env dir
          if removed.1 ≠ [] then
            ((false, removed.1), removed.2)
          else
            removed.2.install site env dir info

def removeDirectories (site : Site) (env : Environment) :
    List Key → GoError × Watch → GoError × Watch
  | [], result => result
  | dir :: rest, (result, watch) =>
    let removed := watch.removeDirectory site env dir
    removeDirectories site env rest (result.join removed.1, removed.2)

/-- Whether a watched directory is at or below a path of the workspace. -/
def atOrBelow (dir subtree : Key) : Bool :=
  watcherPathAtOrBelow (site.root ++ dir) (site.root ++ subtree)

def replaceSubtree (watch : Watch)
    (subtree : Key) (directories : List Key) : GoError × Watch :=
  removeDirectories site env (watch.watched.keys.filter fun watched =>
      atOrBelow site watched subtree && !directories.contains watched)
    ([], watch)

def watchesSubtree (watch : Watch) (subtree : Key) : Bool :=
  watch.watched.keys.any fun watched => atOrBelow site watched subtree

def close (watch : Watch) : Watch :=
  { watch with closed := true }

end Watch

end Ferretd.Documents

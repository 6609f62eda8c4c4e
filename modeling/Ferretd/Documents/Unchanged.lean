import Ferretd.Documents.StaticReconcile
import Ferretd.Documents.Identity

/-!
# Reconciliation of an unchanged file system

When every source file reads alike through both ways of reading it, reconciliation keeps
every retained document.
-/

namespace Ferretd.Documents

open Library Semantics List

variable {key : Key} {before after : Store} {scope : Key → Prop} {found : DocumentMap}
  {explicit : Bool} {site : Site} {env : Environment} {tree : Tree}

/-! ## Two ways of reading a file -/

/-- The file can be opened and inspected, and its path reads as the open file does. -/
def Environment.ReadsAlike (env : Environment) (key : Key) : Prop :=
  ∃ handle info, env.openFile key = .ok handle ∧
    env.handleInfo handle = .ok info ∧
      env.readFile key = env.readAll handle

theorem readsAlike_iff :
    (loadedDocument site env key).reading = (inspectedDocument site env key).reading ↔
      env.ReadsAlike key := by
  unfold Environment.ReadsAlike loadedDocument inspectedDocument
  cases opened : env.openFile key with
  | error =>
    cases env.readFile key with
    | error => simp [Document.reading, newUnreadableDocument]
    | ok => simp [Document.reading, newUnreadableDocument, newDocument]
  | ok handle =>
    dsimp only
    cases informed : env.handleInfo handle with
    | error =>
      cases env.readFile key with
      | error => simp [Document.reading, newUnreadableDocument, informed]
      | ok => simp [Document.reading, newUnreadableDocument, newDocument, informed]
    | ok info =>
      dsimp only
      cases byPath : env.readFile key with
      | error =>
        cases byHandle : env.readAll handle with
        | error => simp [Document.reading, newUnreadableDocument, informed, byHandle]
        | ok => simp [Document.reading, newUnreadableDocument, newDocument, byHandle]
      | ok =>
        cases byHandle : env.readAll handle with
        | error => simp [Document.reading, newUnreadableDocument, newDocument, byHandle]
        | ok =>
          simp only [Document.reading, newDocument]
          constructor
          · intro same
            refine ⟨handle, info, rfl, informed, ?_⟩
            rw [byHandle, (Document.Reading.mk.inj same).2.2.1]
          rintro ⟨other, _, isHandle, _, same⟩
          cases isHandle
          rw [byHandle] at same
          cases same
          rfl

def Environment.Readable (env : Environment) (tree : Tree) : Prop :=
  ∀ key, tree.eligible key = true → env.ReadsAlike key

/-! ## Documents that were read from the file system -/

/-- What the file system gives of a file now: of one that discovery finds, by either way
of reading, or of an explicit selection. -/
def ReadFrom (site : Site) (env : Environment) (tree : Tree)
    (explicitPaths : List Key) (key : Key) (reading : Document.Reading) : Prop :=
  tree.eligible key = true ∧
      (reading = (loadedDocument site env key).reading ∨
        reading = (inspectedDocument site env key).reading) ∨
    key ∈ explicitPaths ∧ tree.selectable key = true ∧
      reading = (inspectedDocument site env key).reading

/-- Every retained document was read from the file system. -/
def Store.AllReadFrom (site : Site) (env : Environment) (tree : Tree)
    (store : Store) : Prop :=
  ∀ key doc, store.documents.lookup key = some doc →
    ReadFrom site env tree store.explicitPaths key doc.reading

/-- Every retained document stays, and what joins it was read from the file system. -/
structure Keeps (site : Site) (env : Environment) (tree : Tree)
    (before after : Store) : Prop where
  documents :
    ∀ key doc, before.documents.lookup key = some doc →
      after.documents.lookup key = some doc
  readFrom : after.AllReadFrom site env tree
  sound : after.Sound site

namespace ReadFrom

variable {explicitPaths wider : List Key} {reading : Document.Reading} {key : Key}

theorem selectable (read : ReadFrom site env tree explicitPaths key reading) :
    tree.selectable key = true := by
  rcases read with ⟨isEligible, _⟩ | ⟨_, isSelectable, _⟩
  · exact Tree.selectable_of_eligible isEligible
  · exact isSelectable

theorem inspected (readable : env.Readable tree)
    (read : ReadFrom site env tree explicitPaths key reading) :
    reading = (inspectedDocument site env key).reading := by
  rcases read with ⟨isEligible, byLoader | byRefresh⟩ | ⟨_, _, byRefresh⟩
  · rw [byLoader]
    exact readsAlike_iff.mpr (readable key isEligible)
  · exact byRefresh
  · exact byRefresh

theorem mono (subset : explicitPaths ⊆ wider)
    (read : ReadFrom site env tree explicitPaths key reading) :
    ReadFrom site env tree wider key reading := by
  rcases read with isEligible | ⟨selected, rest⟩
  · exact .inl isEligible
  · exact .inr ⟨subset selected, rest⟩

end ReadFrom

/-! ## Commits -/

theorem Reconciles.keeps (reconciles : Reconciles before after scope found)
    (sound : after.Sound site) (readable : env.Readable tree)
    (read : before.AllReadFrom site env tree) (grows : before.explicitPaths ⊆ after.explicitPaths)
    (again : ∀ key doc, scope key → before.documents.lookup key = some doc →
      ∃ next, found.lookup key = some next)
    (present : ∀ key next, found.lookup key = some next →
      ReadFrom site env tree after.explicitPaths key next.reading) :
    Keeps site env tree before after := by
  refine ⟨?_, ?_, sound⟩
  · intro key doc retained
    by_cases inScope : scope key
    · obtain ⟨next, isFound⟩ := again key doc inScope retained
      have same : doc.reading = next.reading := by
        rw [(read key doc retained).inspected readable,
          (present key next isFound).inspected readable]
      have law := reconciles.inside key inScope
      rw [retained, isFound] at law
      generalize after.documents.lookup key = result at law
      cases law with
      | same => rfl
      | changed _ _ _ differs => exact absurd same differs
    · rw [reconciles.outside key inScope]
      exact retained
  · intro key doc retained
    by_cases inScope : scope key
    · have law := reconciles.inside key inScope
      rw [retained] at law
      generalize isFound : found.lookup key = next at law
      generalize isCurrent : before.documents.lookup key = current at law
      cases law with
      | same => exact (read key doc isCurrent).mono grows
      | changed _ next | appeared next => exact present key next isFound
    · rw [reconciles.outside key inScope] at retained
      exact (read key doc retained).mono grows

theorem TreeCommitted.keeps (readable : env.Readable tree)
    (sound : before.Sound site) (read : before.AllReadFrom site env tree)
    (committed : TreeCommitted site env tree key before after) :
    Keeps site env tree before after := by
  obtain ⟨content, coherent, lookups, rfl⟩ := committed
  have frame := Store.applyContent_frame before key content
  refine (Store.applyContent_reconciles sound.assigned coherent).keeps
    (sound.applyContent key coherent) readable read (by rw [frame.explicitPaths]; exact fun _ => id)
    ?_ ?_
  · rintro other doc (inSubtree | listed) retained
    · refine Option.isSome_iff_exists.mp ?_
      rw [lookups, treeFinding, loadedFrom]
      rcases read other doc retained with ⟨isEligible, _⟩ | ⟨selected, isSelectable, _⟩
      · simp [inSubtree, isEligible]
      · by_cases isEligible : tree.eligible other = true
        · simp [inSubtree, isEligible]
        · simp [inSubtree, isEligible, selected, foundDocument, isSelectable]
    · exact Option.isSome_iff_exists.mp (AList.lookup_isSome.mpr ((coherent.keys other).mp listed))
  · intro other next isFound
    rw [lookups, treeFinding, loadedFrom] at isFound
    rw [frame.explicitPaths]
    by_cases loaded : workspacePathInSubtree other key && tree.eligible other
    · rw [if_pos loaded] at isFound
      cases isFound
      exact .inl ⟨(Bool.and_eq_true_iff.mp loaded).2, .inl rfl⟩
    rw [if_neg loaded, Option.none_or] at isFound
    split at isFound
    next selected =>
      unfold foundDocument at isFound
      split at isFound
      next isSelectable =>
        cases isFound
        exact .inr ⟨(mem_filter.mp selected).1, isSelectable, rfl⟩
      · cases isFound
    · cases isFound

theorem inspectedDocument_first (key : Key) :
    (inspectedDocument site env key).FirstOf site key := by
  unfold inspectedDocument
  split
  · exact ⟨rfl, rfl⟩
  split
  · exact ⟨rfl, rfl⟩
  · split
    · exact ⟨rfl, rfl⟩
    · exact ⟨rfl, rfl⟩

theorem DocumentCommitted.keeps (readable : env.Readable tree)
    (sound : before.Sound site) (read : before.AllReadFrom site env tree)
    (committed : DocumentCommitted site env tree key explicit before after) :
    Keeps site env tree before after := by
  rw [DocumentCommitted] at committed
  have isFirst : ∀ doc ∈ foundDocument site env
      (tree.finds (explicit || decide (key ∈ before.explicitPaths)) key) key,
      doc.FirstOf site key := by
    intro doc isFound
    unfold foundDocument at isFound
    split at isFound
    · cases isFound
      exact inspectedDocument_first key
    · cases isFound
  have commit := Store.commitDocument_spec sound isFirst explicit
    (decide (key ∈ before.explicitPaths))
  rw [← committed] at commit
  refine commit.reconciles.keeps commit.sound readable read ?_ ?_ ?_
  · intro other selected
    rw [commit.explicitPaths]
    exact Store.mem_admitting.mpr (.inl selected)
  · rintro other doc rfl retained
    rw [Store.finding_lookup]
    have isSelectable := (read other doc retained).selectable
    refine ⟨inspectedDocument site env other, if_pos ?_⟩
    rcases read other doc retained with ⟨isEligible, _⟩ | ⟨selected, _⟩
    · unfold Tree.finds
      split
      · exact isSelectable
      · exact isEligible
    · simp [Tree.finds, selected, isSelectable]
  · intro other next isFound
    obtain ⟨rfl, discovered⟩ := Store.finding_some isFound
    rw [commit.explicitPaths, discovered]
    unfold foundDocument at discovered
    split at discovered
    next finds =>
      cases discovered
      unfold Tree.finds at finds
      split at finds
      next selected =>
        refine .inr ⟨Store.mem_admitting.mpr ?_, finds, rfl⟩
        simpa [or_comm] using selected
      · exact .inl ⟨finds, .inr rfl⟩
    · cases discovered

/-! ## Sequences of calls -/

/-- A call of the reconciliation.  The subtree of a `reconcileTree` is not itself a source
file. -/
def Call.Reconciles (tree : Tree) : Call → Prop
  | .refreshDocument _ | .reconcileDocument _ _ => True
  | .reconcileTree relativePath =>
    ∀ key, normalizeWorkspacePath relativePath = some key → tree.eligible key = false
  | .reconcileWatchEvent _ _ => False

/-- Make calls one after the other, whether they succeed or fail. -/
def Shared.evaluateCalls (site : Site) (env : Environment) (fuel : Nat) :
    Shared → List Call → Option Shared
  | shared, [] => some shared
  | shared, call :: rest =>
    match shared.evaluate site env (call.code site fuel).run with
    | none => none
    | some (_, after) => evaluateCalls site env fuel after rest

section Calls

variable {store first second third : Store} {fuel : Nat} {calls : List Call} {shared : Shared}
  (truthful : env.Truthful tree)
variable (readable : env.Readable tree)
variable (sound : shared.store.Sound site)
variable (read : shared.store.AllReadFrom site env tree)

theorem Keeps.refl (sound : store.Sound site) (read : store.AllReadFrom site env tree) :
    Keeps site env tree store store :=
  ⟨fun _ _ present => present, read, sound⟩

theorem Keeps.trans (left : Keeps site env tree first second)
    (right : Keeps site env tree second third) :
    Keeps site env tree first third :=
  ⟨fun key doc present => right.documents key doc (left.documents key doc present),
    right.readFrom, right.sound⟩

/-- The call keeps the documents, whether it succeeds or fails. -/
abbrev YieldsKept (site : Site) (env : Environment) (tree : Tree) (shared : Shared)
    (code : Code (Option Document)) : Prop :=
  (serving site env).yields
    (fun _ after => Keeps site env tree shared.store after.store)
    (fun _ after => Keeps site env tree shared.store after.store) code shared

theorem yieldsKept_begin (kept : Keeps site env tree shared.store shared.store) :
    YieldsKept site env tree shared (do
      check (← ask .beginMutation)
      return none) := by
  refine yields_ask_keep nofun nofun nofun ?_
  intro err after _ untouched
  rw [← untouched] at kept
  rw [show shared.store = after.store from untouched.symm]
  exact yields_check kept (yields_pure kept)

include truthful readable sound read in
theorem yieldsKept_reconcileDocument (relativePath : Text) (explicit : Bool) :
    YieldsKept site env tree shared (reconcileDocument site relativePath explicit) := by
  cases normalized : normalizeDocumentPath relativePath with
  | none =>
    unfold reconcileDocument
    rw [normalized]
    exact yieldsKept_begin (.refl sound read)
  | some =>
    refine yields_mono ?_ ?_ (yields_reconcileDocument truthful explicit normalized shared)
    · intro _ after committed
      exact committed.keeps readable sound read
    rintro _ after (untouched | committed)
    · rw [untouched]
      exact .refl sound read
    · exact committed.keeps readable sound read

include truthful readable sound read in
theorem yieldsKept_call (within : tree.Within fuel) {call : Call}
    (reconciles : call.Reconciles tree) :
    YieldsKept site env tree shared (call.code site fuel) := by
  cases call with
  | refreshDocument relativePath =>
    refine yields_bind (yields_mono ?_ (fun _ _ kept => kept)
      (yieldsKept_reconcileDocument truthful readable sound read relativePath true))
    intro doc after kept
    cases doc with
    | none => exact yields_throw kept
    | some => exact yields_pure kept
  | reconcileDocument relativePath explicit =>
    exact yieldsKept_reconcileDocument truthful readable sound read relativePath explicit
  | reconcileTree relativePath =>
    cases normalized : normalizeWorkspacePath relativePath with
    | none =>
      show YieldsKept site env tree shared (reconcileTree site fuel relativePath)
      unfold reconcileTree
      rw [normalized]
      exact yieldsKept_begin (.refl sound read)
    | some key =>
      refine yields_mono ?_ ?_
        (yields_reconcileTree truthful within (reconciles key normalized) normalized shared)
      · intro _ after committed
        exact committed.keeps readable sound read
      rintro _ after (untouched | committed)
      · rw [untouched]
        exact .refl sound read
      · exact committed.keeps readable sound read
  | reconcileWatchEvent => exact absurd reconciles id

include truthful readable sound read in
theorem evaluateCalls_keeps (within : tree.Within fuel)
    (reconciling : ∀ call ∈ calls, call.Reconciles tree) :
    ∃ last, shared.evaluateCalls site env fuel calls = some last ∧
      Keeps site env tree shared.store last.store := by
  induction calls generalizing shared with
  | nil => exact ⟨shared, rfl, .refl sound read⟩
  | cons call _ ih =>
    obtain ⟨result, after, evaluated, ended⟩ := Shared.evaluate_of_ensures
      (yieldsKept_call truthful readable sound read within (reconciling call mem_cons_self))
    have kept : Keeps site env tree shared.store after.store := by
      cases result with
      | ok | error => exact ended
    obtain ⟨last, continued, further⟩ := ih kept.sound kept.readFrom
      fun other isLater => reconciling other (mem_cons_of_mem call isLater)
    refine ⟨last, ?_, kept.trans further⟩
    rw [Shared.evaluateCalls, evaluated]
    exact continued

end Calls

/-- In a file system that does not change and whose source files read alike, every
sequence of reconciliations ends with the documents that were retained before. -/
theorem unchanged_filesystem_keeps {m : Machine} (reached : Reaches (Machine.step site) .new m)
    (truthful : env.Truthful tree) {fuel : Nat} (within : tree.Within fuel)
    (read : m.shared.store.AllReadFrom site env tree)
    (readable : env.Readable tree) {calls : List Call}
    (reconciling : ∀ call ∈ calls, call.Reconciles tree) :
    ∃ last, m.shared.evaluateCalls site env fuel calls = some last ∧
      ∀ key doc, m.shared.store.documents.lookup key = some doc →
        last.store.documents.lookup key = some doc := by
  have sound := (machineSound_run reached).store
  obtain ⟨last, evaluated, kept⟩ :=
    evaluateCalls_keeps truthful readable sound read within reconciling
  exact ⟨last, evaluated, kept.documents⟩

/-! ## A workspace with one file -/

/-- The answers for the file `a.fql`. -/
def readableFile : Environment :=
  (oneFile plainName).environment [] fun _ => []

/-- The answers when the file `a.fql` may not be opened. -/
def forbiddenFile : Environment :=
  { readableFile with
    openFile := fun _ => .error [.permission]
    readFile := fun _ => .error [.permission] }

theorem oneFile_eligible (isEligible : (oneFile plainName).eligible key = true) :
    key = [plainName] := by
  obtain ⟨dir, name, rfl, _, regular, _⟩ := Tree.eligible_cases isEligible
  have present : dir ++ [name] ∈ [[plainName], ([] : Key)] := Tree.mem_of_kind regular
  simpa using present

theorem readableFile_readable : readableFile.Readable (oneFile plainName) := by
  intro key isEligible
  cases oneFile_eligible isEligible
  exact ⟨⟨[plainName], 1⟩, ⟨.regular, 1⟩, rfl, rfl, rfl⟩

theorem forbiddenFile_truthful : forbiddenFile.Truthful (oneFile plainName) := by
  have plain : readableFile.Truthful (oneFile plainName) := Tree.environment_truthful rfl
  obtain ⟨context, lists, listed, shows, inspected, _, _, absolute, absolutePresent, dir,
    after, added⟩ := plain
  refine ⟨context, lists, listed, shows, inspected, ?_, nofun, absolute, absolutePresent,
    dir, after, added⟩
  intro key err _ opened
  cases opened
  rfl

theorem allReadFrom_loaded {store : Store} (keys : store.documents.keys = [[plainName]])
    (loaded : (store.documents.lookup [plainName]).map Document.reading =
      some (loadedDocument sampleSite env [plainName]).reading) :
    store.AllReadFrom sampleSite env (oneFile plainName) := by
  intro key doc present
  have known : key ∈ store.documents.keys :=
    AList.lookup_isSome.mp (Option.isSome_iff_exists.mpr ⟨doc, present⟩)
  rw [keys] at known
  cases mem_singleton.mp known
  rw [present, Option.map_some, Option.some.injEq] at loaded
  exact .inl ⟨by decide, .inl loaded⟩

def threeCalls : List Call :=
  [.reconcileTree (pathText []), .reconcileDocument (pathText [plainName]) false,
    .refreshDocument (pathText [plainName])]

theorem unchanged_filesystem_keeps_one_file :
    ∃ m, Reaches (Machine.step sampleSite) .new m ∧
      (m.shared.store.documents.lookup [plainName]).isSome = true ∧
      ∃ last, m.shared.evaluateCalls sampleSite readableFile 2 threeCalls = some last ∧
        ∀ key doc, m.shared.store.documents.lookup key = some doc →
          last.store.documents.lookup key = some doc := by
  have evaluated : (execute (Machine.step sampleSite) .new openOneFile).map (fun m =>
      decide (m.shared.store.documents.keys = [[plainName]] ∧
        (m.shared.store.documents.lookup [plainName]).map Document.reading =
          some (loadedDocument sampleSite readableFile [plainName]).reading)) = some true := by
    decide +kernel
  obtain ⟨m, reached, passed⟩ := exists_reaches_of_test evaluated
  obtain ⟨keys, loaded⟩ := of_decide_eq_true passed
  refine ⟨m, reached, ?_, unchanged_filesystem_keeps reached
    (Tree.environment_truthful rfl) (by decide) (allReadFrom_loaded keys loaded)
    readableFile_readable ?_⟩
  · rw [← Option.isSome_map, loaded]
    rfl
  intro call isCall
  simp only [threeCalls, mem_cons, not_mem_nil, or_false] at isCall
  rcases isCall with rfl | rfl | rfl
  · intro key normalized
    rw [normalizeWorkspacePath_pathText] at normalized
    cases normalized
    decide
  · trivial
  · trivial

/-- The open of a workspace whose file may not be opened. -/
def openForbiddenFile : List Label :=
  .open_ 2 :: List.replicate 11 (.step forbiddenFile) ++ [.publish]

/-- A file that cannot be opened gets a new revision from its first reconciliation, and a
reconciliation of a file as a subtree removes its document. -/
theorem unchanged_filesystem_changes_forbidden :
    forbiddenFile.Truthful (oneFile plainName) ∧
      (∃ m, Reaches (Machine.step sampleSite) .new m ∧
        m.shared.store.AllReadFrom sampleSite forbiddenFile (oneFile plainName) ∧
        ∃ last, m.shared.evaluateCalls sampleSite forbiddenFile 2
            [.reconcileDocument (pathText [plainName]) false] = some last ∧
          (m.shared.store.documents.lookup [plainName]).map Document.revision = some 1 ∧
          (last.store.documents.lookup [plainName]).map Document.revision = some 2) ∧
      ∃ m, Reaches (Machine.step sampleSite) .new m ∧
        m.shared.store.AllReadFrom sampleSite readableFile (oneFile plainName) ∧
        ∃ last, m.shared.evaluateCalls sampleSite readableFile 2
            [.reconcileTree (pathText [plainName])] = some last ∧
          last.store.documents.lookup [plainName] = none := by
  refine ⟨forbiddenFile_truthful, ?_, ?_⟩
  · have evaluated : (execute (Machine.step sampleSite) .new openForbiddenFile).map
        (fun m => decide (m.shared.store.documents.keys = [[plainName]] ∧
          (m.shared.store.documents.lookup [plainName]).map Document.reading =
            some (loadedDocument sampleSite forbiddenFile [plainName]).reading ∧
          (m.shared.store.documents.lookup [plainName]).map Document.revision = some 1 ∧
          (m.shared.evaluateCalls sampleSite forbiddenFile 2
            [.reconcileDocument (pathText [plainName]) false]).map (fun last =>
              (last.store.documents.lookup [plainName]).map Document.revision) =
                some (some 2))) = some true := by
      decide +kernel
    obtain ⟨m, reached, passed⟩ := exists_reaches_of_test evaluated
    obtain ⟨keys, loaded, first, ran⟩ := of_decide_eq_true passed
    obtain ⟨last, called, second⟩ := Option.map_eq_some_iff.mp ran
    exact ⟨m, reached, allReadFrom_loaded keys loaded, last, called, first, second⟩
  · have evaluated : (execute (Machine.step sampleSite) .new openOneFile).map
        (fun m => decide (m.shared.store.documents.keys = [[plainName]] ∧
          (m.shared.store.documents.lookup [plainName]).map Document.reading =
            some (loadedDocument sampleSite readableFile [plainName]).reading ∧
          (m.shared.evaluateCalls sampleSite readableFile 2
            [.reconcileTree (pathText [plainName])]).map (fun last =>
              last.store.documents.lookup [plainName]) = some none)) = some true := by
      decide +kernel
    obtain ⟨m, reached, passed⟩ := exists_reaches_of_test evaluated
    obtain ⟨keys, loaded, ran⟩ := of_decide_eq_true passed
    obtain ⟨last, called, gone⟩ := Option.map_eq_some_iff.mp ran
    exact ⟨m, reached, allReadFrom_loaded keys loaded, last, called, gone⟩

end Ferretd.Documents

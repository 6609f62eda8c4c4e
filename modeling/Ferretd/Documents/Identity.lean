import Ferretd.Documents.Answers
import Ferretd.Documents.StoreLaws
import Ferretd.Documents.Tree

/-!
# The identity of retained documents

The indexes list the retained documents, nothing but a commit changes what is retained, and
a call that returns without an error has committed what it has discovered.
-/

namespace Ferretd.Documents

open Library MachineEffect Store Issues List

variable {op : Op} {env : Environment} {observable : Key → Prop}
  {before first second third : Store} {site : Site}
  {fuel : Nat}

/-! ## What the calls commit -/

/-- A commit stores first documents of their keys' files. -/
def Op.coherent (site : Site) : Op → Prop
  | .commitDocument key _ _ discovered => ∀ doc ∈ discovered, doc.FirstOf site key
  | .commitTree _ content => content.Coherent site
  | _ => True

abbrev Coherently {Value : Type} (site : Site) (ok : Value → Prop) (code : Code Value) : Prop :=
  Issues (Op.coherent site) ok code

namespace Coherently

theorem ask (coherent : op.coherent site) :
    Coherently site (fun _ => True) (Documents.ask op) :=
  lift ⟨coherent, fun _ => trivial⟩

theorem discovers {Value : Type} {ok : Value → Prop}
    {code : Code Value} (discovered : Discovers observable ok code) :
    Coherently site ok code := by
  refine permit ?_ discovered
  intro op permitted
  cases op with
  | commitDocument | commitTree => cases permitted
  | _ => trivial

theorem check (err : GoError) : Coherently site (fun _ => True) (Documents.check err) := by
  have discovered : Discovers (fun _ => True) (fun _ => True) (Documents.check err) :=
    .check err
  exact discovers discovered

theorem checkContext : Coherently site (fun _ => True) Documents.checkContext :=
  Issues.bind (ask trivial) fun err _ => check err

theorem finishing {Value : Type} {ok : Value → Prop} {code : Code Value}
    (coherent : Coherently site ok code) :
    Coherently site ok (Documents.finishing code) := by
  unfold Documents.finishing
  refine .bind (attempt coherent) ?_
  intro result holds
  refine .bind (ask trivial) ?_
  intro finishErr _
  cases result with
  | error => exact throw _
  | ok value =>
    exact .bind (check finishErr) fun _ _ => Issues.pure (holds value rfl)

theorem reconcileDocument (relativePath : Text) (explicit : Bool) :
    Coherently site (fun _ => True) (Documents.reconcileDocument site relativePath explicit) := by
  unfold Documents.reconcileDocument
  refine .bind (ask trivial) fun err _ => ?_
  refine .bind (check err) fun _ _ => ?_
  split
  · exact .pure trivial
  rename_i key _
  refine .bind (ask trivial) ?_
  rintro ⟨watching, admitted⟩ _
  refine finishing ?_
  have observes : AncestorsObserved (fun _ => True) (explicit || admitted) key :=
    fun _ _ _ => trivial
  refine .bind (discovers (discovers_discoverWorkspaceDocument observes)) ?_
  intro discovered shape
  refine .bind checkContext fun _ _ => ?_
  refine .bind (ask shape.first) ?_
  intro answer _
  cases answer with
  | error => exact throw _
  | ok => exact .pure trivial

theorem reconcileTree (fuel : Nat) (relativePath : Text) :
    Coherently site (fun _ => True) (Documents.reconcileTree site fuel relativePath) := by
  unfold Documents.reconcileTree
  refine .bind (ask trivial) fun err _ => ?_
  refine .bind (check err) fun _ _ => ?_
  split
  · exact .pure trivial
  rename_i key _
  refine .bind (ask trivial) ?_
  rintro ⟨watching, explicitPaths⟩ _
  refine finishing ?_
  have content : Discovers (fun _ => True)
      (WorkspaceContent.Reconciled site [] explicitPaths)
      (reconcileContent site watching fuel key explicitPaths) :=
    discovers_reconcileContent nil_prefix (fun _ _ => nil_prefix)
      (fun _ _ => trivial) (fun _ _ _ _ _ => trivial)
  refine .bind (discovers content) ?_
  intro content reconciled
  refine .bind (ask reconciled.coherent) fun err _ => ?_
  refine .bind (check err) fun _ _ => ?_
  split
  · refine .bind (ask trivial) fun err _ => ?_
    split
    · exact throw _
    · exact .pure trivial
  · exact .pure trivial

theorem reconcileWatchEvent (fuel : Nat) (rename : Bool) (relativePath : Text) :
    Coherently site (fun _ => True)
      (Documents.reconcileWatchEvent site fuel rename relativePath) := by
  unfold Documents.reconcileWatchEvent
  split
  · exact .pure trivial
  rename_i key _
  have whenWatched : Coherently site (fun _ => True) (do
      if ← Documents.ask (.watchesSubtree key) then
        Documents.reconcileTree site fuel (pathText key)
      else
        return none) := by
    refine .bind (ask trivial) fun watched _ => ?_
    split
    · exact reconcileTree fuel _
    · exact .pure trivial
  split
  · exact reconcileTree fuel _
  split
  · exact reconcileTree fuel _
  split
  · exact reconcileTree fuel _
  split
  · exact reconcileDocument _ false
  refine .bind (ask trivial) ?_
  intro answer _
  cases answer with
  | error =>
    dsimp only
    split
    · exact throw _
    · exact whenWatched
  | ok =>
    dsimp only
    split
    · exact reconcileTree fuel _
    · exact whenWatched

theorem call (call : Call) (fuel : Nat) :
    Coherently site (fun _ => True) (call.code site fuel) := by
  cases call with
  | refreshDocument relativePath =>
    refine .bind (reconcileDocument relativePath true) ?_
    intro doc _
    cases doc with
    | none => exact throw _
    | some => exact .pure trivial
  | reconcileDocument relativePath explicit =>
    exact reconcileDocument relativePath explicit
  | reconcileTree relativePath => exact reconcileTree fuel relativePath
  | reconcileWatchEvent rename relativePath =>
    exact reconcileWatchEvent fuel rename relativePath

end Coherently

theorem discovers_openCode (fuel : Nat) :
    Discovers (fun dir => hasExcluded dir = false)
      (WorkspaceContent.Loaded site []) (openCode site fuel) := by
  unfold openCode
  refine .bind (Discovers.observe rfl) fun err _ => ?_
  refine .bind (Discovers.check err) fun _ _ => ?_
  refine .bind (discovers_loadWorkspace fun _ clean => clean) ?_
  intro content loaded
  exact .bind Discovers.checkContext fun _ _ => Issues.pure loaded

/-! ## The invariant -/

/-- What the work under way still does: a load reads, a mutation commits coherently. -/
def Task.Coherent (site : Site) : Task → Prop
  | .loading code =>
    code.issues (Op.discovers fun dir => hasExcluded dir = false)
      fun result => ∀ content, result = .ok content → content.Loaded site []
  | .mutation code => code.issues (Op.coherent site) fun _ => True

variable {after store : Store}

theorem Discovers.not_commits
    (permitted : op.discovers observable) (move : StoreMove env store op after) :
    after = store := by
  cases move with
  | kept => rfl
  | document | tree => cases permitted

theorem StoreMove.of_unready (move : StoreMove env store op after)
    (unready : store.state ≠ .ready) : after = store := by
  cases move with
  | kept => rfl
  | document _ ready | tree _ ready => exact absurd ready unready

theorem StoreMove.commits (sound : store.Sound site) (coherent : op.coherent site)
    (move : StoreMove env store op after) :
    after.Sound site ∧ after.state = store.state := by
  cases move with
  | kept => exact ⟨sound, rfl⟩
  | @document _ explicit admitted =>
    have spec := commitDocument_spec sound coherent explicit admitted
    exact ⟨spec.sound, spec.state⟩
  | @tree subtree content =>
    exact ⟨sound.applyContent subtree coherent, (applyContent_frame store subtree content).state⟩

/-- Documents are retained in a ready workspace only, and a load is one of a workspace
that is still opening. -/
structure Machine.Sound (site : Site) (m : Machine) : Prop where
  store : m.shared.store.Sound site
  task : ∀ task ∈ m.task, task.Coherent site
  loading : ∀ code, m.task = some (.loading code) → m.shared.store.state = .opening
  unready : m.shared.store.state ≠ .ready → m.shared.store.documents = ∅

namespace Store

theorem Sound.of_empty (documents : store.documents = ∅)
    (order : store.order = []) (files : store.files = []) : store.Sound site := by
  refine ⟨by rw [order]; exact List.Pairwise.nil, ?_, by rw [order, files]; rfl, ?_, ?_, ?_⟩
  · intro key
    simp [order, documents]
  · intro key doc present
    simp [documents] at present
  · intro key doc present
    simp [documents] at present
  · intro key other doc second present
    simp [documents] at present

theorem close_empty (sound : store.Sound site)
    (unready : store.state ≠ .ready → store.documents = ∅) :
    store.close.Sound site ∧ store.close.documents = ∅ ∧ store.close.state = .closed := by
  unfold close
  split
  next closed =>
    exact ⟨sound, unready (by rw [closed]; decide), closed⟩
  · exact ⟨Sound.of_empty rfl rfl rfl, rfl, rfl⟩

end Store

theorem Machine.sound_new : Machine.new.Sound site :=
  ⟨Store.Sound.of_empty rfl rfl rfl, nofun, nofun, fun _ => rfl⟩

variable {m next : Machine} {label : Label}

theorem Machine.Sound.step (sound : m.Sound site)
    (taken : m.step site label = some next) : next.Sound site := by
  cases of_step taken with
  | @opened fuel _ opening =>
    refine ⟨sound.store, ?_, fun _ _ => opening, sound.unready⟩
    intro task isTask
    cases isTask
    exact discovers_openCode fuel
  | @loaded content task =>
    have loaded : content.Loaded site [] := sound.task _ task content rfl
    refine ⟨Store.Sound.setReady _ loaded.coherent loaded.indexed, nofun, nofun, ?_⟩
    intro unready
    exact absurd rfl unready
  | discarded => exact ⟨Store.Sound.of_empty rfl rfl rfl, nofun, nofun, fun _ => rfl⟩
  | @started call fuel =>
    refine ⟨sound.store, ?_, nofun, sound.unready⟩
    intro task isTask
    cases isTask
    exact program_mono (fun _ _ => trivial) (Coherently.call call fuel)
  | @loads _ _ _ answer _ task performed =>
    obtain ⟨permitted, continues⟩ := sound.task _ task
    have kept := Discovers.not_commits permitted (StoreMove.of_perform performed)
    refine ⟨by rw [kept]; exact sound.store, ?_, ?_, by rw [kept]; exact sound.unready⟩
    · intro task isTask
      cases isTask
      exact continues answer
    · intro code _
      rw [kept]
      exact sound.loading _ task
  | @mutates _ _ _ answer _ task performed =>
    obtain ⟨coherent, continues⟩ := sound.task _ task
    have move := StoreMove.of_perform performed
    obtain ⟨soundAfter, state⟩ := move.commits sound.store coherent
    refine ⟨soundAfter, ?_, nofun, ?_⟩
    · intro task isTask
      cases isTask
      exact continues answer
    dsimp only
    rw [state]
    intro unready
    rw [move.of_unready unready]
    exact sound.unready unready
  | returned => exact ⟨sound.store, nofun, nofun, sound.unready⟩
  | marked =>
    exact ⟨⟨sound.store.sorted, sound.store.keys, sound.store.files, sound.store.documents,
      sound.store.assigned, sound.store.distinct⟩, sound.task, sound.loading, sound.unready⟩
  | watchClosed => exact ⟨sound.store, sound.task, sound.loading, sound.unready⟩
  | closed published =>
    obtain ⟨soundAfter, empty, state⟩ := Store.close_empty sound.store sound.unready
    refine ⟨soundAfter, sound.task, ?_, fun _ => empty⟩
    intro code task
    have opening := sound.loading code task
    simp [Machine.published, opening] at published

theorem machineSound_run (reached : Reaches (Machine.step site) .new m) :
    m.Sound site := by
  apply reached.invariant
  · exact Machine.sound_new
  · intro state label next sound _ taken
    exact sound.step taken

/-! ## The theorem -/

/-- `order` lists the retained keys in increasing order, and `files` their files. -/
structure Store.Indexed (store : Store) : Prop where
  increasing : store.order.Pairwise fun left right => pathText left < pathText right
  members : ∀ key, key ∈ store.order ↔ key ∈ store.documents
  files :
    store.files.map some =
      store.order.map fun key => (store.documents.lookup key).map Document.file

/-- The commit that the next step makes: the keys it decides and what it has found. -/
def Machine.committing (m : Machine) : Label → Option ((Key → Prop) × DocumentMap)
  | .step env =>
    if m.shared.store.closing = true ∨ env.ctxErr ≠ [] then
      none
    else
      match m.task with
      | some (.mutation (.call (.commitDocument key _ _ discovered) _)) =>
        some ((· = key), finding key discovered)
      | some (.mutation (.call (.commitTree subtree content) _)) =>
        some (inContent subtree content, content.documents)
      | _ => none
  | _ => none

structure Store.Unchanged (before after : Store) : Prop where
  documents : after.documents = before.documents
  order : after.order = before.order
  files : after.files = before.files
  explicitPaths : after.explicitPaths = before.explicitPaths
  generation : after.nextDocumentGeneration = before.nextDocumentGeneration

/-- Every commit obeys `Reconciles`; what it finds has revision 1. -/
def Machine.CommitsReconcile (site : Site) (m : Machine) : Prop :=
  ∀ label next scope found, m.step site label = some next →
    m.committing label = some (scope, found) →
      Reconciles m.shared.store next.shared.store scope found ∧
        ∀ key doc, found.lookup key = some doc → doc.revision = 1

/-- The key that a call reconciles, if its path names one. -/
def Call.key : Call → Option Key
  | .refreshDocument relativePath | .reconcileDocument relativePath _ =>
    normalizeDocumentPath relativePath
  | .reconcileTree relativePath => normalizeWorkspacePath relativePath
  | .reconcileWatchEvent _ _ => none

/-- `explicit` of the call that reconciles one document. -/
def Call.explicit : Call → Option Bool
  | .refreshDocument _ => some true
  | .reconcileDocument _ explicit => some explicit
  | _ => none

/-- By its answers so far a call has discovered what its next operation commits: a run of
the discovery on these answers returns it. -/
inductive Call.Discovers (site : Site) (fuel : Nat) (key : Key) :
    Call → Answers → Sigma Op.Answer → (Key → Prop) → DocumentMap → Prop
  | document {call : Call} {explicit watching admitted : Bool} {answers : Answers}
      {discovered : DiscoveredDocument} {returned : Option Document}
      (isExplicit : call.explicit = some explicit)
      (run : Program.Runs (discoverWorkspaceDocument site watching (explicit || admitted) key).run
        answers (.ok discovered)) :
      Discovers site fuel key call (⟨.beginMutation, []⟩ ::
          ⟨.lookup key, (watching, admitted)⟩ :: answers ++ [⟨.ctxErr, []⟩])
        ⟨.commitDocument key explicit admitted discovered.document, .ok returned⟩ (· = key)
        (finding key discovered.document)
  | tree {relativePath : Text} {watching : Bool} {explicitPaths : List Key} {answers : Answers}
      {content : WorkspaceContent}
      (run : Program.Runs (reconcileContent site watching fuel key explicitPaths).run answers
        (.ok content)) :
      Discovers site fuel key (.reconcileTree relativePath) (⟨.beginMutation, []⟩ ::
          ⟨.selections key, (watching, explicitPaths)⟩ :: answers)
        ⟨.commitTree key content, []⟩ (inContent key content) content.documents

/-- A call that returns without an error has made, at one step of its run, the commit of
what it has discovered. -/
def Machine.CallsCommit (site : Site) (m : Machine) : Prop :=
  ∀ call fuel key begun ended trace value, call.key = some key →
    m.step site (.start call fuel) = some begun →
    CallRun site (begun, []) (ended, trace) →
    ended.task = some (.mutation (.done (.ok value))) →
      ∃ front commit scope found before env after,
        call.Discovers site fuel key front commit scope found ∧
        CallRun site (begun, []) (before, front) ∧
        before.committing (.step env) = some (scope, found) ∧
        before.step site (.step env) = some after ∧
        CallRun site (after, front ++ [commit]) (ended, trace)

/-- Without a commit and without the close of the workspace nothing changes. -/
def Machine.UncommittedKeeps (site : Site) (m : Machine) : Prop :=
  ∀ next, Run (Machine.step site)
      (fun state label => label ≠ .close ∧ state.committing label = none) m next →
    m.shared.store.Unchanged next.shared.store

/-- A document that is retained later is retained now, or its generation is above all
that have been assigned. -/
def Machine.GenerationsIdentify (site : Site) (m : Machine) : Prop :=
  ∀ next, Reaches (Machine.step site) m next →
    ∀ key other doc later, m.shared.store.documents.lookup key = some doc →
      next.shared.store.documents.lookup other = some later →
        (m.shared.store.documents.lookup other = some later ∨
          doc.generation < later.generation) ∧
        (doc.generation = later.generation → key = other ∧ doc = later)

theorem Store.Sound.indexed (sound : store.Sound site) : store.Indexed := by
  refine ⟨sound.sorted, sound.keys, ?_⟩
  rw [sound.files, map_map]
  refine map_congr_left ?_
  intro key listed
  have present := (sound.keys key).mp listed
  rw [← AList.lookup_isSome] at present
  obtain ⟨doc, isDocument⟩ := Option.isSome_iff_exists.mp present
  rw [isDocument]
  exact congrArg some (sound.documents key doc isDocument).symm

variable {scope : Key → Prop} {found : DocumentMap}

theorem Machine.committing_some (commits : m.committing label = some (scope, found)) :
    ∃ env, label = .step env ∧ m.shared.store.closing = false ∧
      env.ctxErr = [] ∧
      ((∃ key explicit admitted discovered next,
          m.task =
            some (.mutation (.call (.commitDocument key explicit admitted discovered) next)) ∧
          scope = (· = key) ∧ found = finding key discovered) ∨
        ∃ subtree content next,
          m.task = some (.mutation (.call (.commitTree subtree content) next)) ∧
          scope = inContent subtree content ∧ found = content.documents) := by
  cases label with
  | step env =>
    simp only [committing] at commits
    split at commits
    · cases commits
    rename_i open_
    rw [not_or, Bool.not_eq_true, not_not] at open_
    refine ⟨env, rfl, open_.1, open_.2, ?_⟩
    split at commits
    next key explicit admitted discovered continuation task =>
      cases commits
      exact .inl ⟨key, explicit, admitted, discovered, continuation, task, rfl, rfl⟩
    next subtree content continuation task =>
      cases commits
      exact .inr ⟨subtree, content, continuation, task, rfl, rfl⟩
    · cases commits
  | _ => cases commits

theorem Call.discovers_of_runs {call : Call} {key : Key} {trace : Answers}
    {value : Option Document} (named : call.key = some key)
    (run : Program.Runs (call.code site fuel).run trace (.ok value)) :
    ∃ front commit back scope found, trace = front ++ commit :: back ∧
      call.Discovers site fuel key front commit scope found := by
  cases call with
  | refreshDocument relativePath =>
    obtain ⟨_, _, after, rfl, reconciled, -⟩ := Program.Runs.of_bind_ok run
    obtain ⟨_, _, _, _, back, rfl, discovers⟩ := runs_reconcileDocument named reconciled
    exact ⟨_, _, back ++ after, _, _, append_assoc _ _ _, .document rfl discovers⟩
  | reconcileDocument relativePath explicit =>
    obtain ⟨_, _, _, _, back, rfl, discovers⟩ := runs_reconcileDocument named run
    exact ⟨_, _, back, _, _, rfl, .document rfl discovers⟩
  | reconcileTree relativePath =>
    obtain ⟨_, _, _, _, back, rfl, discovers⟩ := runs_reconcileTree named run
    exact ⟨_, _, back, _, _, rfl, .tree discovers⟩
  | reconcileWatchEvent => cases named

theorem Call.Discovers.committing {call : Call} {key : Key} {front : Answers}
    {commit : Sigma Op.Answer} (discovers : call.Discovers site fuel key front commit scope found)
    (answers : m.answered site (.step env) = [commit]) :
    m.committing (.step env) = some (scope, found) := by
  simp only [Machine.answered] at answers
  split at answers
  next op continue_ task =>
    split at answers
    next answer after performed =>
      cases answers
      cases discovers with
      | document =>
        change some (m.shared.commitDocument env key _ _ _) = _ at performed
        unfold Shared.commitDocument at performed
        split at performed
        · cases performed
        split at performed
        · cases performed
        next accepting live => simp_all [Machine.committing]
      | tree =>
        change some (m.shared.commitTree env key _) = _ at performed
        unfold Shared.commitTree at performed
        split at performed
        next cancelled =>
          exact absurd (congrArg Prod.fst (Option.some.inj performed)) cancelled
        split at performed
        · cases performed
        next live accepting => simp_all [Machine.committing]
    · cases answers
  · cases answers

theorem Machine.callsCommit (site : Site) (m : Machine) : m.CallsCommit site := by
  intro call fuel key begun ended trace value named started run returned
  have task : begun.task = some (.mutation (call.code site fuel).run) := by
    cases of_step started
    rfl
  obtain ⟨rest, isRest, completes⟩ := CallRun.completes task run
  cases isRest.symm.trans returned
  have complete := completes [] _ (.done _)
  rw [append_nil] at complete
  obtain ⟨front, commit, back, scope, found, rfl, discovers⟩ :=
    Call.discovers_of_runs named complete
  obtain ⟨before, env, after, earlier, taken, answers, later⟩ :=
    CallRun.split task run rfl
  exact ⟨front, commit, scope, found, before, env, after, discovers, earlier,
    discovers.committing answers, taken, later⟩

section

variable (sound : m.Sound site) (ready : m.shared.store.state = .ready)
include sound ready

theorem Machine.Sound.commitsReconcile : m.CommitsReconcile site := by
  intro label next scope found taken commits
  obtain ⟨env, rfl, accepting, live, committed⟩ := Machine.committing_some commits
  rcases committed with ⟨key, explicit, admitted, discovered, continuation, task, rfl, rfl⟩ |
      ⟨subtree, content, continuation, task, rfl, rfl⟩
  · have first : ∀ doc ∈ discovered, doc.FirstOf site key := (sound.task _ task).1
    simp only [Machine.step, task, Machine.advance, Shared.perform, Shared.commitDocument,
      accepting, ready, live, Bool.false_eq_true, ne_eq, not_true_eq_false, or_self, if_false,
      Option.map_some, Option.some.injEq] at taken
    subst taken
    refine ⟨(commitDocument_spec sound.store first explicit admitted).reconciles, ?_⟩
    intro other doc present
    exact (first doc (finding_some present).2).2
  · have coherent : content.Coherent site := (sound.task _ task).1
    simp only [Machine.step, task, Machine.advance, Shared.perform, Shared.commitTree,
      accepting, ready, live, Bool.false_eq_true, ne_eq, not_true_eq_false, or_self, if_false,
      Option.map_some, Option.some.injEq] at taken
    subst taken
    refine ⟨applyContent_reconciles sound.store.assigned coherent, ?_⟩
    intro other doc present
    exact (coherent.fresh other doc present).2

theorem Machine.Sound.unchanged (taken : m.step site label = some next) (open_ : label ≠ .close)
    (uncommitted : m.committing label = none) :
    next.shared.store.state = .ready ∧ m.shared.store.Unchanged next.shared.store := by
  have notLoading : ∀ code, m.task ≠ some (.loading code) := by
    intro code task
    have opening := sound.loading code task
    rw [ready] at opening
    cases opening
  have same : m.shared.store.Unchanged m.shared.store :=
    ⟨rfl, rfl, rfl, rfl, rfl⟩
  cases of_step taken with
  | loaded task | discarded task | loads task =>
    exact absurd task (notLoading _)
  | @mutates _ _ _ _ shared task performed =>
    have move := StoreMove.of_perform performed
    dsimp only
    generalize shared.store = after at move
    cases move with
    | kept => exact ⟨ready, same⟩
    | document accepting _ live | tree accepting _ live =>
      simp [Machine.committing, accepting, live, task] at uncommitted
  | marked => exact ⟨ready, ⟨rfl, rfl, rfl, rfl, rfl⟩⟩
  | closed => exact absurd rfl open_
  | _ => exact ⟨ready, same⟩

end

theorem Store.Unchanged.trans (left : first.Unchanged second)
    (right : second.Unchanged third) : first.Unchanged third :=
  ⟨right.documents.trans left.documents, right.order.trans left.order,
    right.files.trans left.files, right.explicitPaths.trans left.explicitPaths,
    right.generation.trans left.generation⟩

theorem Machine.Sound.uncommittedKeeps (sound : m.Sound site)
    (ready : m.shared.store.state = .ready) : m.UncommittedKeeps site := by
  intro next run
  have kept : next.Sound site ∧ next.shared.store.state = .ready ∧
      m.shared.store.Unchanged next.shared.store := by
    apply run.invariant
    · exact ⟨sound, ready, ⟨rfl, rfl, rfl, rfl, rfl⟩⟩
    intro state label after holds allowed taken
    obtain ⟨soundThere, readyThere, unchanged⟩ := holds
    obtain ⟨readyAfter, step⟩ := soundThere.unchanged readyThere taken allowed.1 allowed.2
    exact ⟨soundThere.step taken, readyAfter, unchanged.trans step⟩
  exact kept.2.2

/-- Documents that join the retained ones get new generations. -/
structure Store.Aged (before after : Store) : Prop where
  grows : before.nextDocumentGeneration ≤ after.nextDocumentGeneration
  old :
    ∀ key doc, after.documents.lookup key = some doc →
      before.documents.lookup key = some doc ∨
        before.nextDocumentGeneration < doc.generation

theorem Store.Aged.trans (left : first.Aged second)
    (right : second.Aged third) : first.Aged third := by
  refine ⟨Nat.le_trans left.grows right.grows, ?_⟩
  intro key doc present
  rcases right.old key doc present with earlier | above
  · exact left.old key doc earlier
  · exact .inr (Nat.lt_of_le_of_lt left.grows above)

theorem Reconciles.aged (reconciles : Reconciles before after scope found) : before.Aged after := by
  refine ⟨reconciles.grows, ?_⟩
  intro key doc present
  rcases Nat.lt_or_ge before.nextDocumentGeneration doc.generation with above | earlier
  · exact .inr above
  · exact .inl (reconciles.old present earlier)

theorem Store.Unchanged.aged (unchanged : before.Unchanged after) :
    before.Aged after := by
  refine ⟨Nat.le_of_eq unchanged.generation.symm, ?_⟩
  intro key doc present
  rw [unchanged.documents] at present
  exact .inl present

theorem Machine.Sound.ages (sound : m.Sound site) (taken : m.step site label = some next) :
    (m.shared.store.state = .closed → next.shared.store.state = .closed) ∧
      (m.shared.store.state = .ready →
        next.shared.store.state = .closed ∨
          next.shared.store.state = .ready ∧ m.shared.store.Aged next.shared.store) := by
  constructor
  · intro closed
    have notLoading : ∀ code, m.task ≠ some (.loading code) := by
      intro code task
      have opening := sound.loading code task
      rw [closed] at opening
      cases opening
    cases of_step taken with
    | loaded task | discarded task | loads task =>
      exact absurd task (notLoading _)
    | mutates _ performed =>
      have kept := (StoreMove.of_perform performed).of_unready (by rw [closed]; decide)
      dsimp only
      rw [kept]
      exact closed
    | closed => exact (Store.close_empty sound.store sound.unready).2.2
    | _ => exact closed
  · intro ready
    by_cases closes : label = .close
    · subst closes
      cases of_step taken with
      | closed => exact .inl (Store.close_empty sound.store sound.unready).2.2
    cases commits : m.committing label with
    | none =>
      obtain ⟨readyAfter, unchanged⟩ := sound.unchanged ready taken closes commits
      exact .inr ⟨readyAfter, unchanged.aged⟩
    | some =>
      have reconciles := (sound.commitsReconcile ready _ _ _ _ taken commits).1
      refine .inr ⟨?_, reconciles.aged⟩
      obtain ⟨env, rfl, _, _, _⟩ := Machine.committing_some commits
      cases of_step taken with
      | loads task =>
        have opening := sound.loading _ task
        rw [ready] at opening
        cases opening
      | mutates task performed =>
        have moved := StoreMove.of_perform performed
        exact (moved.commits sound.store (sound.task _ task).1).2.trans ready

theorem Machine.Sound.generationsIdentify (sound : m.Sound site)
    (ready : m.shared.store.state = .ready) : m.GenerationsIdentify site := by
  intro next run key other doc later present laterPresent
  have kept : next.Sound site ∧ (next.shared.store.state = .closed ∨
      next.shared.store.state = .ready ∧ m.shared.store.Aged next.shared.store) := by
    apply run.invariant
    · refine ⟨sound, .inr ⟨ready, Nat.le_refl _, ?_⟩⟩
      intro key doc present
      exact .inl present
    intro state label after holds _ taken
    obtain ⟨soundThere, there⟩ := holds
    refine ⟨soundThere.step taken, ?_⟩
    rcases there with closed | ⟨readyThere, aged⟩
    · exact .inl ((soundThere.ages taken).1 closed)
    · rcases (soundThere.ages taken).2 readyThere with closed | ⟨readyAfter, step⟩
      · exact .inl closed
      · exact .inr ⟨readyAfter, aged.trans step⟩
  obtain ⟨soundNext, there⟩ := kept
  rcases there with closed | ⟨_, aged⟩
  · rw [soundNext.unready (by rw [closed]; decide)] at laterPresent
    cases laterPresent
  have assigned := sound.store.assigned key doc present
  rcases aged.old other later laterPresent with earlier | above
  · refine ⟨.inl earlier, ?_⟩
    intro same
    have sameKey := sound.store.distinct key other doc later present earlier same
    subst sameKey
    rw [present] at earlier
    exact ⟨rfl, Option.some.inj earlier⟩
  · exact ⟨.inr (by omega), fun same => by omega⟩

/-- The identity of retained documents in every run of a ready workspace. -/
theorem document_identity (reached : Reaches (Machine.step site) .new m)
    (ready : m.shared.store.state = .ready) :
    m.shared.store.Indexed ∧ m.CommitsReconcile site ∧ m.CallsCommit site ∧
      m.UncommittedKeeps site ∧ m.GenerationsIdentify site := by
  have sound := machineSound_run reached
  exact ⟨sound.store.indexed, sound.commitsReconcile ready, m.callsCommit site,
    sound.uncommittedKeeps ready, sound.generationsIdentify ready⟩

def openOneFile : List Label :=
  .open_ 2 :: List.replicate 12 (.step ((oneFile plainName).environment [] fun _ => [])) ++
    [.publish]

/-- The answers for the file `a.fql` with another content. -/
def rewrittenFile : Environment :=
  { (oneFile plainName).environment [] fun _ => [] with
    readAll := fun _ => .ok "RETURN 2".toList }

/-- The call has returned the document that it has retained as the second revision. -/
def refreshed (before ended : Machine) : Bool :=
  match ended.task with
  | some (.mutation (.done (.ok (some doc)))) =>
    decide (before.shared.store.state = .ready ∧
      (before.shared.store.documents.lookup [plainName]).map Document.revision = some 1 ∧
      doc.revision = 2 ∧
      ended.shared.store.documents.lookup [plainName] = some doc)
  | _ => false

/-- The changed file is refreshed, and its document gets the revision 2. -/
theorem document_identity_one_file :
    ∃ m, Reaches (Machine.step sampleSite) .new m ∧
      (m.shared.store.state = .ready ∧
        (m.shared.store.documents.lookup [plainName]).map Document.revision = some 1) ∧
      (∃ begun ended trace doc,
        m.step sampleSite (.start (.refreshDocument (pathText [plainName])) 2) = some begun ∧
        Machine.CallRun sampleSite (begun, []) (ended, trace) ∧
        ended.task = some (.mutation (.done (.ok (some doc)))) ∧
        ended.shared.store.documents.lookup [plainName] = some doc ∧
        doc.revision = 2) ∧
      m.shared.store.Indexed ∧ m.CommitsReconcile sampleSite ∧
      m.CallsCommit sampleSite ∧ m.UncommittedKeeps sampleSite ∧
      m.GenerationsIdentify sampleSite := by
  have evaluated : ((execute (Machine.step sampleSite) .new openOneFile).bind fun m =>
      (m.step sampleSite (.start (.refreshDocument (pathText [plainName])) 2)).bind
        fun begun => (execute (guarded (Machine.traced sampleSite) fun _ label =>
          label.isReturn = false) (begun, []) (List.replicate 15 (.step rewrittenFile))).map
            fun ended => refreshed m ended.1) = some true := by
    decide +kernel
  obtain ⟨m, opened, later⟩ := Option.bind_eq_some_iff.mp evaluated
  obtain ⟨begun, started, later⟩ := Option.bind_eq_some_iff.mp later
  obtain ⟨⟨ended, trace⟩, executed, passed⟩ := Option.map_eq_some_iff.mp later
  have reached := reaches_of_execute opened
  have run := run_of_guarded (reaches_of_execute executed)
  simp only [refreshed] at passed
  split at passed
  next doc task =>
    obtain ⟨ready, first, second, retained⟩ := of_decide_eq_true passed
    exact ⟨m, reached, ⟨ready, first⟩, ⟨begun, ended, trace, doc, started, run, task,
      retained, second⟩, document_identity reached ready⟩
  · cases passed

end Ferretd.Documents

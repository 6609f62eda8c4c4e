import Ferretd.Documents.Identity
import Ferretd.Documents.WatchLaws

/-!
# Excluded directories

Whatever a workspace retains or watches in an excluded directory was selected explicitly.
-/

namespace Ferretd.Documents

open Library Semantics List

variable {dir : Key} {op : Op} {observable : Key → Prop} {site : Site}

/-- A directory at or below an excluded one is above a selected document. -/
def Selected (explicitPaths : List Key) (dir : Key) : Prop :=
  hasExcluded dir = true → ∃ key ∈ explicitPaths, dir <+: keyDir key

/-- A retained document in an excluded directory is a selected one. -/
def Store.KeepsOut (store : Store) : Prop :=
  ∀ key ∈ store.documents, hasExcluded (keyDir key) = true → key ∈ store.explicitPaths

namespace Shared

/-- What a ready workspace keeps out when no mutation is under way. -/
def KeepsOut (shared : Shared) : Prop :=
  shared.store.state = .ready → shared.store.KeepsOut ∧
    ∀ dir ∈ shared.watch.watched, Selected shared.store.explicitPaths dir

/-- The same but for the watches that the end of the mutation removes. -/
def Settles (shared : Shared) : Prop :=
  shared.store.state = .ready → shared.store.KeepsOut ∧
    ∀ dir ∈ shared.watch.watched,
      shared.registration.committed = false ∧ dir ∈ shared.registration.added ∨
        Selected shared.store.explicitPaths dir

/-- A mutation that has not committed: what it has added it may observe, and the paths it
has found selected stay selected. -/
structure Holds (observable : Key → Prop) (selected : List Key) (shared : Shared) : Prop where
  settles : shared.Settles
  uncommitted : shared.registration.committed = false
  added : ∀ dir ∈ shared.registration.added, observable dir
  selected : shared.store.state = .ready → ∀ key ∈ selected, key ∈ shared.store.explicitPaths

/-- What may happen to a workspace during a mutation: it is closed, step by step. -/
structure Disturbed (before after : Shared) : Prop where
  watched : after.watch.watched = before.watch.watched
  registration : after.registration = before.registration
  ready :
    after.store.state = .ready → before.store.state = .ready ∧
      after.store.documents = before.store.documents ∧
        after.store.explicitPaths = before.store.explicitPaths

theorem Disturbed.refl (shared : Shared) : Disturbed shared shared :=
  ⟨rfl, rfl, fun ready => ⟨ready, rfl, rfl⟩⟩

theorem Disturbed.trans (first second third : Shared) (left : Disturbed first second)
    (right : Disturbed second third) : Disturbed first third := by
  refine ⟨right.watched.trans left.watched, right.registration.trans left.registration, ?_⟩
  intro ready
  obtain ⟨wasReady, documents, explicitPaths⟩ := right.ready ready
  obtain ⟨initially, sameDocuments, samePaths⟩ := left.ready wasReady
  exact ⟨initially, documents.trans sameDocuments, explicitPaths.trans samePaths⟩

section Stable

variable {before after : Shared} (disturbed : Disturbed before after)

include disturbed in
theorem KeepsOut.stable (keeps : before.KeepsOut) : after.KeepsOut := by
  intro ready
  obtain ⟨wasReady, documents, explicitPaths⟩ := disturbed.ready ready
  rw [Store.KeepsOut, documents, explicitPaths, disturbed.watched]
  exact keeps wasReady

include disturbed in
theorem Settles.stable (settles : before.Settles) : after.Settles := by
  intro ready
  obtain ⟨wasReady, documents, explicitPaths⟩ := disturbed.ready ready
  rw [Store.KeepsOut, documents, explicitPaths, disturbed.watched, disturbed.registration]
  exact settles wasReady

include disturbed in
theorem Holds.stable {selected : List Key}
    (holds : before.Holds observable selected) : after.Holds observable selected := by
  refine ⟨holds.settles.stable disturbed, ?_, ?_, ?_⟩
  · rw [disturbed.registration]
    exact holds.uncommitted
  · rw [disturbed.registration]
    exact holds.added
  intro ready
  obtain ⟨wasReady, _, explicitPaths⟩ := disturbed.ready ready
  rw [explicitPaths]
  exact holds.selected wasReady

end Stable

theorem KeepsOut.settles {shared : Shared} (keeps : shared.KeepsOut) : shared.Settles := by
  intro ready
  obtain ⟨documents, watched⟩ := keeps ready
  exact ⟨documents, fun dir present => .inr (watched dir present)⟩

end Shared

/-! ## Mutations amid the steps of a close -/

/-- Every operation is answered by the file system of its moment. -/
def performing (site : Site) : Semantics Op Op.Answer Shared where
  permitted _ _ := True
  handles shared op answer after :=
    ∃ env, shared.perform site env op = some (answer, after)

abbrev mutating (site : Site) : Semantics Op Op.Answer Shared :=
  (performing site).amid Shared.Disturbed

section Yields

variable {failed : GoError → Shared → Prop} {Value : Type} {shared : Shared}
  {observable : Key → Prop} {selected explicitPaths : List Key} {err : GoError} {subtree : Key}

variable {ok : Value → Shared → Prop}

theorem mutating_ask {rest : op.Answer → Code Value}
    (continued : ∀ env middle answer after, shared.Disturbed middle →
      middle.perform site env op = some (answer, after) →
        (mutating site).yields ok failed (rest answer) after) :
    (mutating site).yields ok failed (ask op >>= rest) shared := by
  refine yields_bind (yields_lift (ensures_ask (fun _ _ => trivial) ?_))
  rintro answer after ⟨middle, disturbed, env, performed⟩
  exact continued env middle answer after disturbed performed

theorem mutating_check {rest : Code Value} (refused : failed err shared)
    (continued : (mutating site).yields ok failed rest shared) :
    (mutating site).yields ok failed (check err >>= fun _ => rest) shared := by
  refine yields_bind ?_
  unfold check
  split
  · exact yields_pure continued
  · exact yields_throw refused

theorem Shared.Holds.observe (env : Environment)
    (holds : shared.Holds observable selected) (permitted : observable dir) :
    (shared.observe site env dir).2.Holds observable selected := by
  have effect := Watch.AddEffect.of_addDirectory site env shared.watch dir
  unfold Shared.observe
  dsimp only
  generalize shared.watch.addDirectory site env dir = result at effect
  obtain ⟨⟨added, err⟩, watch⟩ := result
  dsimp only at effect ⊢
  have grows : ∀ other ∈ shared.registration.added,
      other ∈ (if added then shared.registration.added ++ [dir]
        else shared.registration.added) := by
    intro other present
    split
    · exact mem_append_left _ present
    · exact present
  refine ⟨?_, holds.uncommitted, ?_, holds.selected⟩
  · intro ready
    obtain ⟨documents, watched⟩ := holds.settles ready
    refine ⟨documents, ?_⟩
    intro other present
    rcases effect.mem present with before | ⟨rfl, rfl⟩
    · rcases watched other before with ⟨open_, wasAdded⟩ | isSelected
      · exact .inl ⟨open_, grows other wasAdded⟩
      · exact .inr isSelected
    · exact .inl ⟨holds.uncommitted, by simp⟩
  · intro other present
    dsimp only at present
    split at present
    · rcases mem_append.mp present with before | last
      · exact holds.added other before
      · rw [mem_singleton.mp last]
        exact permitted
    · exact holds.added other present

variable {code : Code Value}

theorem mutating_discovers {ok : Value → Prop} (discovered : Discovers observable ok code)
    (holds : shared.Holds observable selected) :
    (mutating site).yields (fun value after => ok value ∧ after.Holds observable selected)
      (fun _ after => after.Holds observable selected) code shared := by
  refine ensures_mono ?_ (Issues.ensures discovered holds (fun _ _ _ _ _ _ => trivial) ?_)
  · rintro result after ⟨returned, holdsAfter⟩
    cases result with
    | ok value => exact ⟨returned value rfl, holdsAfter⟩
    | error => exact holdsAfter
  · rintro state op answer after held permitted ⟨middle, disturbed, env, performed⟩
    have heldThere := held.stable disturbed
    cases op with
    | observe =>
      cases performed
      exact heldThere.observe env permitted
    | diverge => cases performed
    | lstatAbsolute | beginMutation | lookup | selections | commitDocument | commitTree
    | finishRegistration | replaceSubtree | watchesSubtree => cases permitted
    | _ =>
      cases performed
      exact heldThere

variable {env : Environment} {after : Shared}

theorem keepsOut_of_finish {finishErr : GoError} (settles : shared.Settles)
    (performed : shared.perform site env .finishRegistration =
      some (finishErr, after)) : after.KeepsOut := by
  simp only [Shared.perform, Shared.finishRegistration] at performed
  split at performed
  · cases performed
    intro ready
    obtain ⟨documents, watched⟩ := settles ready
    refine ⟨documents, ?_⟩
    intro dir present
    obtain ⟨wasWatched, kept⟩ := (Watch.mem_removeDirectories _ _ _ _).mp present
    rcases watched dir wasWatched with ⟨_, wasAdded⟩ | isSelected
    · exact absurd wasAdded kept
    · exact isSelected
  next nothing =>
    cases performed
    intro ready
    obtain ⟨documents, watched⟩ := settles ready
    refine ⟨documents, ?_⟩
    intro dir present
    rcases watched dir present with ⟨open_, wasAdded⟩ | isSelected
    · exact absurd ⟨open_, ne_nil_of_mem wasAdded⟩ nothing
    · exact isSelected

/-- The code leaves `KeepsOut`, whether it succeeds or fails. -/
abbrev YieldsOut (site : Site) (code : Code Value) (shared : Shared) : Prop :=
  (mutating site).yields (fun _ after => after.KeepsOut) (fun _ after => after.KeepsOut) code
    shared

theorem mutating_finishing (settled : (mutating site).yields (fun _ after => after.Settles)
      (fun _ after => after.Settles) code shared) :
    YieldsOut site (finishing code) shared := by
  unfold finishing
  refine yields_bind (yields_attempt ?_)
  refine yields_mono ?_ ?_ settled
  · intro value state settles
    refine mutating_ask ?_
    intro env middle finishErr after disturbed performed
    have keeps := keepsOut_of_finish (settles.stable disturbed) performed
    exact mutating_check keeps (yields_pure keeps)
  · intro err state settles
    refine mutating_ask ?_
    intro env middle finishErr after disturbed performed
    exact yields_throw (keepsOut_of_finish (settles.stable disturbed) performed)

/-! ## The commits -/

theorem Shared.Holds.selects (holds : shared.Holds observable selected)
    (observed : ∀ dir, observable dir → Selected explicitPaths dir)
    (grows : shared.store.explicitPaths ⊆ explicitPaths) (ready : shared.store.state = .ready)
    (present : dir ∈ shared.watch.watched) : Selected explicitPaths dir := by
  rcases (holds.settles ready).2 dir present with ⟨_, wasAdded⟩ | isSelected
  · exact observed dir (holds.added dir wasAdded)
  · intro excluded
    obtain ⟨key, isExplicit, below⟩ := isSelected excluded
    exact ⟨key, grows isExplicit, below⟩

theorem commitDocument_settles {answer : Except GoError (Option Document)}
    {key : Key} {explicit admitted : Bool} {discovered : DiscoveredDocument} (holds : shared.Holds
      (fun dir => hasExcluded dir = true →
        (explicit || admitted) = true ∧ dir <+: keyDir key) (if admitted then [key] else []))
    (shape : discovered.Shape site (explicit || admitted) key) (performed : shared.perform site env
      (.commitDocument key explicit admitted discovered.document) = some (answer, after)) :
    after.Settles := by
  simp only [Shared.perform, Shared.commitDocument] at performed
  split at performed
  · cases performed
    exact holds.settles
  split at performed
  · cases performed
    exact holds.settles
  rename_i accepting _
  rw [not_or, not_not] at accepting
  have ready := accepting.2
  cases performed
  have isKnown : admitted = true → key ∈ shared.store.explicitPaths := by
    intro isAdmitted
    exact holds.selected ready key (by simp [isAdmitted])
  intro _
  dsimp only
  rw [Store.KeepsOut, Store.commitDocument_explicitPaths, Store.commitDocument_committed]
  constructor
  · intro other present excluded
    rw [Store.mem_commitDocument] at present
    rw [Store.mem_admitting]
    split at present
    next same =>
      subst same
      have found : discovered.document ≠ none := by
        intro missing
        rw [missing] at present
        cases present
      cases isExplicit : explicit with
      | true => exact .inr ⟨present, rfl⟩
      | false =>
        refine .inl (isKnown ?_)
        by_contra implicit
        have clean := shape.clean found (by simpa [isExplicit] using implicit)
        rw [clean] at excluded
        cases excluded
    · exact .inl ((holds.settles ready).1 other present excluded)
  · intro dir present
    cases committed : discovered.document.isSome || !explicit || admitted with
    | false =>
      rcases (holds.settles ready).2 dir present with ⟨_, wasAdded⟩ | isSelected
      · exact .inl ⟨rfl, wasAdded⟩
      · refine .inr fun excluded => ?_
        obtain ⟨other, isExplicit, below⟩ := isSelected excluded
        exact ⟨other, Store.mem_admitting.mpr (.inl isExplicit), below⟩
    | true =>
      refine .inr (holds.selects ?_ ?_ ready present)
      · intro observed permitted excluded
        obtain ⟨isReached, below⟩ := permitted excluded
        refine ⟨key, Store.mem_admitting.mpr ?_, below⟩
        cases isAdmitted : admitted with
        | true => exact .inl (isKnown isAdmitted)
        | false =>
          rw [isAdmitted, Bool.or_false] at isReached
          rw [isAdmitted, isReached] at committed
          exact .inr ⟨by simpa [isReached] using committed, rfl⟩
      · intro other isExplicit
        exact Store.mem_admitting.mpr (.inl isExplicit)

theorem commitTree_settles {content : WorkspaceContent} {commitErr : GoError} (holds : shared.Holds
      (fun dir => hasExcluded dir = true →
        ∃ key ∈ explicitPaths, dir <+: keyDir key) explicitPaths)
    (reconciled : content.Reconciled site [] explicitPaths)
    (performed : shared.perform site env (.commitTree subtree content) =
      some (commitErr, after)) : after.Settles ∧ (commitErr = [] → after.KeepsOut) := by
  simp only [Shared.perform, Shared.commitTree] at performed
  split at performed
  next cancelled =>
    cases performed
    exact ⟨holds.settles, fun clear => absurd clear cancelled⟩
  split at performed
  · cases performed
    exact ⟨holds.settles, (by simp)⟩
  rename_i accepting
  rw [not_or, not_not] at accepting
  have ready := accepting.2
  cases performed
  have frame := Store.applyContent_frame shared.store subtree content
  have keeps : Shared.KeepsOut { shared with
      store := shared.store.applyContent subtree content
      registration := { shared.registration with committed := true } } := by
    intro _
    dsimp only
    rw [Store.KeepsOut, frame.explicitPaths]
    constructor
    · intro other present excluded
      rcases (Store.mem_applyContent reconciled.coherent _ _ _).mp present with
        found | ⟨_, before⟩
      · have below := (reconciled.below other ((reconciled.coherent.keys other).mpr found)).2
        rcases below with isSelected | clean
        · exact holds.selected ready other isSelected
        · rw [clean] at excluded
          cases excluded
      · exact (holds.settles ready).1 other before excluded
    · intro dir present
      refine holds.selects ?_ (fun _ => id) ready present
      intro observed permitted excluded
      obtain ⟨key, isSelected, below⟩ := permitted excluded
      exact ⟨key, holds.selected ready key isSelected, below⟩
  exact ⟨keeps.settles, fun _ => keeps⟩

theorem keepsOut_of_replaceSubtree {directories : List Key} (keeps : shared.KeepsOut)
    (performed : shared.perform site env (.replaceSubtree subtree directories) =
      some (err, after)) : after.KeepsOut := by
  cases performed
  intro ready
  obtain ⟨documents, watched⟩ := keeps ready
  refine ⟨documents, ?_⟩
  intro dir present
  exact watched dir ((Watch.mem_removeDirectories _ _ _ _).mp present).1

/-! ## The calls -/

section

variable (keeps : shared.KeepsOut)
include keeps

theorem Shared.KeepsOut.register (known : ∀ key ∈ selected, key ∈ shared.store.explicitPaths) :
    Shared.Holds observable selected { shared with registration := .new } := by
  refine ⟨?_, rfl, nofun, fun _ => known⟩
  intro ready
  obtain ⟨documents, watched⟩ := keeps ready
  exact ⟨documents, fun dir present => .inr (watched dir present)⟩

theorem yieldsOut_reconcileDocument (relativePath : Text)
    (explicit : Bool) : YieldsOut site (reconcileDocument site relativePath explicit) shared := by
  unfold reconcileDocument
  refine mutating_ask ?_
  intro env middle err after disturbed performed
  cases performed
  have begun := keeps.stable disturbed
  refine mutating_check begun ?_
  split
  · exact yields_pure begun
  rename_i key _
  refine mutating_ask ?_
  rintro env looked ⟨watching, admitted⟩ after disturbed performed
  have keepsThere := begun.stable disturbed
  have registered : after.Holds
      (fun dir => hasExcluded dir = true →
        (explicit || admitted) = true ∧ dir <+: keyDir key)
      (if admitted then [key] else []) := by
    cases performed
    refine keepsThere.register ?_
    intro other present
    split at present
    next isAdmitted =>
      rw [mem_singleton.mp present]
      exact of_decide_eq_true isAdmitted
    · cases present
  refine mutating_finishing ?_
  have observes : AncestorsObserved
      (fun dir => hasExcluded dir = true →
        (explicit || admitted) = true ∧ dir <+: keyDir key)
      (explicit || admitted) key := by
    intro dir below clean excluded
    refine ⟨?_, below⟩
    by_contra implicit
    rw [clean (Bool.eq_false_iff.mpr implicit)] at excluded
    cases excluded
  refine yields_bind (yields_mono ?_ (fun _ _ holds => holds.settles)
    (mutating_discovers (discovers_discoverWorkspaceDocument observes) registered))
  rintro discovered state ⟨shape, holds⟩
  refine yields_bind (yields_mono ?_ (fun _ _ held => held.settles)
    (mutating_discovers .checkContext holds))
  rintro _ checked ⟨_, held⟩
  refine mutating_ask ?_
  intro env there answer last disturbed performed
  have settles := commitDocument_settles (held.stable disturbed) shape performed
  cases answer with
  | error => exact yields_throw settles
  | ok => exact yields_pure settles

theorem yieldsOut_reconcileTree (fuel : Nat) (relativePath : Text) :
    YieldsOut site (reconcileTree site fuel relativePath) shared := by
  unfold reconcileTree
  refine mutating_ask ?_
  intro env middle err after disturbed performed
  cases performed
  have begun := keeps.stable disturbed
  refine mutating_check begun ?_
  split
  · exact yields_pure begun
  rename_i key _
  refine mutating_ask ?_
  rintro env looked ⟨watching, explicitPaths⟩ after disturbed performed
  have keepsThere := begun.stable disturbed
  have registered : after.Holds
      (fun dir => hasExcluded dir = true →
        ∃ key ∈ explicitPaths, dir <+: keyDir key) explicitPaths := by
    cases performed
    refine keepsThere.register ?_
    intro other present
    exact (mem_filter.mp (mem_sortKeys.mp present)).1
  refine mutating_finishing ?_
  have content : Discovers
      (fun dir => hasExcluded dir = true →
        ∃ key ∈ explicitPaths, dir <+: keyDir key)
      (WorkspaceContent.Reconciled site [] explicitPaths)
      (reconcileContent site watching fuel key explicitPaths) := by
    refine discovers_reconcileContent nil_prefix (fun _ _ => nil_prefix) ?_ ?_
    · intro dir clean excluded
      rw [clean] at excluded
      cases excluded
    · intro other isSelected dir below _ _
      exact ⟨other, isSelected, below⟩
  refine yields_bind (yields_mono ?_ (fun _ _ holds => holds.settles)
    (mutating_discovers content registered))
  rintro found state ⟨reconciled, holds⟩
  refine mutating_ask ?_
  intro env there commitErr last disturbed performed
  obtain ⟨settles, committed⟩ :=
    commitTree_settles (holds.stable disturbed) reconciled performed
  refine yields_bind ?_
  by_cases clear : commitErr = []
  · have keepsAfter := committed clear
    rw [check, if_pos clear]
    refine yields_pure ?_
    split
    · refine mutating_ask ?_
      intro env there replaceErr last disturbed performed
      have kept := keepsOut_of_replaceSubtree (keepsAfter.stable disturbed) performed
      split
      · exact yields_throw kept.settles
      · exact yields_pure kept.settles
    · exact yields_pure settles
  · rw [check, if_neg clear]
    exact yields_throw settles

theorem yieldsOut_reconcileWatchEvent (fuel : Nat) (rename : Bool) (relativePath : Text) :
    YieldsOut site (reconcileWatchEvent site fuel rename relativePath) shared := by
  unfold reconcileWatchEvent
  split
  · exact yields_pure keeps
  rename_i key _
  have whenWatched : ∀ {state : Shared}, state.KeepsOut → YieldsOut site (do
      if ← ask (.watchesSubtree key) then
        reconcileTree site fuel (pathText key)
      else
        return none) state := by
    intro state kept
    refine mutating_ask ?_
    intro env middle watched after disturbed performed
    cases performed
    split
    · exact yieldsOut_reconcileTree (kept.stable disturbed) fuel _
    · exact yields_pure (kept.stable disturbed)
  split
  · exact yieldsOut_reconcileTree keeps fuel _
  split
  · exact yieldsOut_reconcileTree keeps fuel _
  split
  · exact yieldsOut_reconcileTree keeps fuel _
  split
  · exact yieldsOut_reconcileDocument keeps _ false
  refine mutating_ask ?_
  intro env middle answer after disturbed performed
  have kept : after.KeepsOut := by
    cases performed
    exact keeps.stable disturbed
  cases answer with
  | error =>
    dsimp only
    split
    · exact yields_throw kept
    · exact whenWatched kept
  | ok =>
    dsimp only
    split
    · exact yieldsOut_reconcileTree kept fuel _
    · exact whenWatched kept

theorem yieldsOut_call (call : Call) (fuel : Nat) :
    YieldsOut site (call.code site fuel) shared := by
  cases call with
  | refreshDocument relativePath =>
    refine yields_bind (yields_mono ?_ (fun _ _ kept => kept)
      (yieldsOut_reconcileDocument keeps relativePath true))
    intro doc after kept
    cases doc with
    | none => exact yields_throw kept
    | some => exact yields_pure kept
  | reconcileDocument relativePath explicit =>
    exact yieldsOut_reconcileDocument keeps relativePath explicit
  | reconcileTree relativePath => exact yieldsOut_reconcileTree keeps fuel relativePath
  | reconcileWatchEvent rename relativePath =>
    exact yieldsOut_reconcileWatchEvent keeps fuel rename relativePath

end

end Yields

/-! ## Every run -/

/-- A call that is under way ends with `KeepsOut`. -/
structure Machine.KeepsOut (site : Site) (m : Machine) : Prop where
  idle : m.task = none → m.shared.KeepsOut
  mutation :
    ∀ code, m.task = some (.mutation code) →
      m.shared.store.state ≠ .opening ∧
        (mutating site).ensures (fun _ after => after.KeepsOut) code m.shared
  opening :
    m.shared.store.state = .opening →
      ∀ dir ∈ m.shared.watch.watched, hasExcluded dir = false
  unready : m.shared.store.state ≠ .ready → m.shared.store.explicitPaths = []

theorem Shared.watched_of_discovers {answer : op.Answer} {env : Environment} {shared after : Shared}
    (permitted : op.discovers observable)
    (performed : shared.perform site env op = some (answer, after))
    (present : dir ∈ after.watch.watched) :
    dir ∈ shared.watch.watched ∨ observable dir := by
  cases op with
  | observe other =>
    cases performed
    rcases (Watch.AddEffect.of_addDirectory site env shared.watch other).mem present
      with before | ⟨_, rfl⟩
    · exact .inl before
    · exact .inr permitted
  | diverge => cases performed
  | lstatAbsolute | beginMutation | lookup | selections | commitDocument | commitTree
  | finishRegistration | replaceSubtree | watchesSubtree => cases permitted
  | _ =>
    cases performed
    exact .inl present

namespace Machine

variable {m next : Machine} {label : Label}

theorem keepsOut_new : Machine.new.KeepsOut site := by
  refine ⟨fun _ ready => ?_, nofun, nofun, fun _ => rfl⟩
  cases ready

section

variable {content : WorkspaceContent} (keeps : m.KeepsOut site)
include keeps

theorem KeepsOut.disturb {shared : Shared} (disturbed : m.shared.Disturbed shared)
    (opening : shared.store.state = .opening → m.shared.store.state = .opening)
    (unready : shared.store.state ≠ .ready → shared.store.explicitPaths = []) :
    Machine.KeepsOut site { m with shared := shared } := by
  refine ⟨fun idle => (keeps.idle idle).stable disturbed, ?_, ?_, unready⟩
  · intro code task
    obtain ⟨published, ensured⟩ := keeps.mutation code task
    exact ⟨fun isOpening => published (opening isOpening),
      ensures_moves Shared.Disturbed.trans
        (fun _ _ _ kept moved => Shared.KeepsOut.stable moved kept) disturbed ensured⟩
  · intro isOpening
    rw [disturbed.watched]
    exact keeps.opening (opening isOpening)

theorem KeepsOut.publish
    (loaded : content.Loaded site []) (opening : m.shared.store.state = .opening) :
    Shared.KeepsOut { m.shared with store := m.shared.store.setReady content } := by
  intro _
  constructor
  · intro key present excluded
    have listed : key ∈ content.order :=
      ((Store.Sound.setReady m.shared.store loaded.coherent loaded.indexed).keys key).mpr
        present
    obtain ⟨rest, name, rfl, clean⟩ := loaded.below key listed
    simp only [nil_append, keyDir, dropLast_concat] at excluded
    rw [clean] at excluded
    cases excluded
  · intro dir present excluded
    rw [keeps.opening opening dir present] at excluded
    cases excluded

theorem KeepsOut.step (sound : m.Sound site)
    (taken : m.step site label = some next) : next.KeepsOut site := by
  cases MachineEffect.of_step taken with
  | opened _ opening => exact ⟨(by simp), (by simp), keeps.opening, keeps.unready⟩
  | @loaded content task =>
    have loaded : content.Loaded site [] := sound.task _ task content rfl
    refine ⟨fun _ => keeps.publish loaded (sound.loading _ task), (by simp), (by rintro ⟨⟩), ?_⟩
    intro unready
    exact absurd rfl unready
  | discarded =>
    refine ⟨fun _ ready => ?_, (by simp), (by rintro ⟨⟩), fun _ => rfl⟩
    cases ready
  | @started call fuel idle published =>
    refine ⟨(by simp), ?_, keeps.opening, keeps.unready⟩
    intro code task
    cases task
    refine ⟨fun opening => ?_, ensures_mono ?_ (yieldsOut_call (keeps.idle idle) call fuel)⟩
    · dsimp only at opening
      simp [Machine.published, opening] at published
    intro result after kept
    cases result with
    | ok | error => exact kept
  | @loads op _ _ _ shared task performed =>
    have permitted : op.discovers fun dir => hasExcluded dir = false :=
      (sound.task _ task).1
    have store : shared.store = m.shared.store :=
      Discovers.not_commits permitted (StoreMove.of_perform performed)
    refine ⟨(by simp), (by simp), ?_, ?_⟩
    · intro opening dir present
      rcases Shared.watched_of_discovers permitted performed present with before | clean
      · exact keeps.opening (sound.loading _ task) dir before
      · exact clean
    · dsimp only
      rw [store]
      exact keeps.unready
  | @mutates op _ env answer shared task performed =>
    obtain ⟨published, ensured⟩ := keeps.mutation _ task
    have move := StoreMove.of_perform performed
    have state : shared.store.state = m.shared.store.state :=
      (move.commits sound.store (sound.task _ task).1).2
    have handled : (performing site).handles m.shared op answer shared :=
      ⟨env, performed⟩
    refine ⟨(by simp), ?_, fun opening => absurd (state.symm.trans opening) published, ?_⟩
    · intro code same
      cases same
      refine ⟨?_, ensures_call Shared.Disturbed.refl handled ensured⟩
      rw [state]
      exact published
    · dsimp only
      intro unready
      rw [state] at unready
      rw [move.of_unready unready]
      exact keeps.unready unready
  | returned task =>
    exact ⟨fun _ => (keeps.mutation _ task).2, (by simp), keeps.opening, keeps.unready⟩
  | marked | watchClosed =>
    exact keeps.disturb ⟨rfl, rfl, fun ready => ⟨ready, rfl, rfl⟩⟩ id keeps.unready
  | closed =>
    have closed : m.shared.store.close.state = .closed :=
      (Store.close_empty sound.store sound.unready).2.2
    refine keeps.disturb ⟨rfl, rfl, fun ready => ?_⟩ (fun opening => ?_) fun _ => ?_
    · rw [closed] at ready
      cases ready
    · rw [closed] at opening
      cases opening
    dsimp only
    unfold Store.close
    split
    next already => exact keeps.unready (by rw [already]; decide)
    · rfl

end

theorem keepsOut_run (reached : Reaches (Machine.step site) .new m) :
    m.KeepsOut site := by
  have kept : m.Sound site ∧ m.KeepsOut site := by
    apply reached.invariant
    · exact ⟨sound_new, keepsOut_new⟩
    · intro state label next holds _ taken
      exact ⟨holds.1.step taken, holds.2.step holds.1 taken⟩
  exact kept.2

/-! ## Explicit paths -/

/-- The step admits a path: the commit of an explicit reconciliation that has found the
document. -/
def Admits (m : Machine) (label : Label) (key : Key) : Prop :=
  ∃ env admitted doc continuation, label = .step env ∧
    m.task = some (.mutation (.call (.commitDocument key true admitted (some doc)) continuation))

theorem explicitPaths_step (sound : m.Sound site) (keeps : m.KeepsOut site)
    (taken : m.step site label = some next) :
    (label ≠ .close → m.shared.store.explicitPaths ⊆ next.shared.store.explicitPaths) ∧
    ∀ key ∈ next.shared.store.explicitPaths,
      key ∈ m.shared.store.explicitPaths ∨ m.Admits label key := by
  have same : ∀ {after : Store}, after.explicitPaths = m.shared.store.explicitPaths →
      (label ≠ .close → m.shared.store.explicitPaths ⊆ after.explicitPaths) ∧
        ∀ key ∈ after.explicitPaths,
          key ∈ m.shared.store.explicitPaths ∨ m.Admits label key := by
    intro after paths
    rw [paths]
    exact ⟨fun _ _ => id, fun _ present => .inl present⟩
  cases MachineEffect.of_step taken with
  | discarded task =>
    have opening := sound.loading _ task
    exact same (keeps.unready (by rw [opening]; decide)).symm
  | @loads _ _ _ _ shared task performed =>
    have store : shared.store = m.shared.store :=
      Discovers.not_commits (sound.task _ task).1 (StoreMove.of_perform performed)
    exact same (by rw [store])
  | @mutates _ continuation env _ shared task performed =>
    have move := StoreMove.of_perform performed
    dsimp only
    generalize shared.store = after at move
    cases move with
    | kept => exact same rfl
    | @document _ _ admitted =>
      rw [Store.commitDocument_explicitPaths]
      refine ⟨fun _ other present => Store.mem_admitting.mpr (.inl present), ?_⟩
      intro other present
      rcases Store.mem_admitting.mp present with before | ⟨admits, rfl⟩
      · exact .inl before
      obtain ⟨isExplicit, found⟩ := Bool.and_eq_true_iff.mp admits
      obtain ⟨doc, rfl⟩ := Option.isSome_iff_exists.mp found
      rw [isExplicit] at task
      exact .inr ⟨env, admitted, doc, continuation, rfl, task⟩
    | @tree subtree content =>
      exact same (Store.applyContent_frame m.shared.store subtree content).explicitPaths
  | closed =>
    refine ⟨fun other => absurd rfl other, ?_⟩
    intro key present
    dsimp only [setStore] at present
    unfold Store.close at present
    split at present
    · exact .inl present
    · cases present
  | _ => exact same rfl

end Machine

/-- Between operations, what a ready workspace retains or watches in an excluded directory
was selected; a selection is an admitted one, and only a close removes it. -/
theorem excluded_neighbours_stay_out {m : Machine} (reached : Reaches (Machine.step site) .new m) :
    (m.shared.store.state = .ready → m.task = none →
      (∀ key ∈ m.shared.store.documents, hasExcluded (keyDir key) = true →
        key ∈ m.shared.store.explicitPaths) ∧
      ∀ dir ∈ m.shared.watch.watched, hasExcluded dir = true →
        ∃ key ∈ m.shared.store.explicitPaths, dir <+: keyDir key) ∧
    ∀ label next, m.step site label = some next →
      (label ≠ .close → m.shared.store.explicitPaths ⊆ next.shared.store.explicitPaths) ∧
      ∀ key ∈ next.shared.store.explicitPaths,
        key ∈ m.shared.store.explicitPaths ∨ m.Admits label key := by
  have keeps := Machine.keepsOut_run reached
  refine ⟨fun ready idle => keeps.idle idle ready, ?_⟩
  intro label next taken
  exact Machine.explicitPaths_step (machineSound_run reached) keeps taken

/-! ## A selection in an excluded directory -/

/-- The directory `vendor`. -/
def vendorName : Name :=
  ⟨"vendor".toList, by decide⟩

/-- A workspace with the file `vendor/a.fql`. -/
def vendored : Tree :=
  Tree.ofNodes (AList.insert [vendorName, plainName] (.regular 2 "RETURN 1".toList)
    (AList.insert [vendorName] (.directory 1) (AList.insert [] (.directory 0) ∅)))
    (by decide) (by decide)

/-- The workspace is opened, and the file is refreshed. -/
def refreshVendored : List Label :=
  .open_ 3 :: List.replicate 8 (.step (vendored.environment [] fun _ => [])) ++
    .publish :: .start (.refreshDocument (pathText [vendorName, plainName])) 3 ::
      List.replicate 18 (.step (vendored.environment [] fun _ => [])) ++ [.return_]

theorem excluded_neighbours_stay_out_vendored :
    ∃ m, Reaches (Machine.step sampleSite) .new m ∧
      (m.shared.store.documents.keys = [[vendorName, plainName]] ∧
        m.shared.watch.watched.keys = [[vendorName], []]) ∧
      (∀ key ∈ m.shared.store.documents, hasExcluded (keyDir key) = true →
        key ∈ m.shared.store.explicitPaths) ∧
      ∀ dir ∈ m.shared.watch.watched, hasExcluded dir = true →
        ∃ key ∈ m.shared.store.explicitPaths, dir <+: keyDir key := by
  have evaluated : (execute (Machine.step sampleSite) .new refreshVendored).map
      (fun m => m.task.isNone && decide (m.shared.store.state = .ready ∧
        m.shared.store.documents.keys = [[vendorName, plainName]] ∧
        m.shared.watch.watched.keys = [[vendorName], []])) = some true := by
    decide +kernel
  obtain ⟨m, reached, passed⟩ := exists_reaches_of_test evaluated
  obtain ⟨idle, facts⟩ := Bool.and_eq_true_iff.mp passed
  obtain ⟨ready, retained⟩ := of_decide_eq_true facts
  exact ⟨m, reached, retained, (excluded_neighbours_stay_out reached).1 ready
    (Option.isNone_iff_eq_none.mp idle)⟩

end Ferretd.Documents

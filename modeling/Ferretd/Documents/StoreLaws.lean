import Ferretd.Documents.Shape

/-!
# What the critical sections do to the retained documents

`Reconciles` is the law of a commit: what becomes of every key, given what was found.
`Store.Sound` is kept by every commit that obeys it.
-/

namespace Ferretd.Documents

open List

/-! ## The law of a commit -/

/-- The document retained under a key before and after a commit that has found `found`
there.  `floor` and `ceiling` are the generation counters before and after. -/
inductive Reconciled (floor ceiling : Nat) :
    Option Document → Option Document → Option Document → Prop
  | gone (current : Option Document) : Reconciled floor ceiling current none none
  | same (current next : Document) (unchanged : current.reading = next.reading) :
      Reconciled floor ceiling (some current) (some next) (some current)
  | changed (current next : Document) (generation : Nat)
      (differs : current.reading ≠ next.reading) (above : floor < generation)
      (assigned : generation ≤ ceiling) :
      Reconciled floor ceiling (some current) (some next)
        (some ((next.withRevision (current.revision + 1)).withGeneration generation))
  | appeared (next : Document) (generation : Nat) (above : floor < generation)
      (assigned : generation ≤ ceiling) :
      Reconciled floor ceiling none (some next) (some (next.withGeneration generation))

/-- The documents after a commit in `scope`. -/
structure Reconciles (before after : Store) (scope : Key → Prop) (found : DocumentMap) :
    Prop where
  outside : ∀ key, ¬scope key → after.documents.lookup key = before.documents.lookup key
  inside :
    ∀ key, scope key →
      Reconciled before.nextDocumentGeneration after.nextDocumentGeneration
        (before.documents.lookup key) (found.lookup key) (after.documents.lookup key)
  grows : before.nextDocumentGeneration ≤ after.nextDocumentGeneration
  distinct :
    ∀ key other doc second, after.documents.lookup key = some doc →
      after.documents.lookup other = some second →
        before.nextDocumentGeneration < doc.generation →
          doc.generation = second.generation → key = other

variable {floor' floor ceiling ceiling' : Nat} {current : Option Document} {found : DocumentMap}
  {before after middle : Store} {scope : Key → Prop} {key : Key} {doc next : Document}
  {keys : List Key} {site : Site}

theorem Reconciled.widen {found after : Option Document}
    (lower : floor' ≤ floor) (upper : ceiling ≤ ceiling')
    (reconciled : Reconciled floor ceiling current found after) :
    Reconciled floor' ceiling' current found after := by
  cases reconciled with
  | gone => exact .gone current
  | same current next unchanged => exact .same current next unchanged
  | changed current next generation differs =>
    exact .changed current next generation differs (by omega) (by omega)
  | appeared next generation => exact .appeared next generation (by omega) (by omega)

/-- No retained document has a generation that is still to be assigned. -/
def Store.Assigned (store : Store) : Prop :=
  ∀ key doc, store.documents.lookup key = some doc →
    doc.generation ≤ store.nextDocumentGeneration

namespace Reconciles

theorem refl (store : Store) (bounded : store.Assigned) (found : DocumentMap) :
    Reconciles store store (fun _ => False) found := by
  refine ⟨fun _ _ => rfl, nofun, Nat.le_refl _, ?_⟩
  intro key other doc _ present _ above _
  exact absurd (bounded key doc present) (Nat.not_le_of_gt above)

variable {first second : Key → Prop}

theorem congr_scope (reconciles : Reconciles before after first found)
    (same : ∀ key, first key ↔ second key) : Reconciles before after second found := by
  refine ⟨?_, ?_, reconciles.grows, reconciles.distinct⟩
  · intro key outside
    exact reconciles.outside key fun inside => outside ((same key).mp inside)
  · intro key inside
    exact reconciles.inside key ((same key).mpr inside)

theorem old (reconciles : Reconciles before after scope found)
    (present : after.documents.lookup key = some doc)
    (earlier : doc.generation ≤ before.nextDocumentGeneration) :
    before.documents.lookup key = some doc := by
  by_cases inside : scope key
  · have reconciled := reconciles.inside key inside
    rw [present] at reconciled
    generalize before.documents.lookup key = current at reconciled ⊢
    generalize found.lookup key = finding at reconciled
    cases reconciled with
    | same => rfl
    | changed _ _ _ _ above | appeared _ _ above =>
      exact absurd earlier (Nat.not_le_of_gt above)
  · rw [← reconciles.outside key inside]
    exact present

theorem assigned (reconciles : Reconciles before after scope found)
    (bounded : before.Assigned) : after.Assigned := by
  intro key doc present
  have grows := reconciles.grows
  by_cases inside : scope key
  · have reconciled := reconciles.inside key inside
    rw [present] at reconciled
    generalize known : before.documents.lookup key = current at reconciled
    generalize found.lookup key = finding at reconciled
    cases reconciled with
    | same => exact Nat.le_trans (bounded key doc known) grows
    | changed _ _ _ _ _ assigned | appeared _ _ _ assigned => exact assigned
  · rw [reconciles.outside key inside] at present
    exact Nat.le_trans (bounded key doc present) grows

theorem trans (initial : Reconciles before middle first found)
    (final : Reconciles middle after second found) (disjoint : ∀ key, first key → ¬second key) :
    Reconciles before after (fun key => first key ∨ second key) found := by
  have grows := initial.grows
  have growsAgain := final.grows
  refine ⟨?_, ?_, Nat.le_trans grows growsAgain, ?_⟩
  · intro key outside
    rw [final.outside key fun inside => outside (.inr inside),
      initial.outside key fun inside => outside (.inl inside)]
  · rintro key (inFirst | inSecond)
    · rw [final.outside key (disjoint key inFirst)]
      exact (initial.inside key inFirst).widen (Nat.le_refl _) growsAgain
    · rw [← initial.outside key fun inFirst => disjoint key inFirst inSecond]
      exact (final.inside key inSecond).widen grows (Nat.le_refl _)
  · intro key other doc another present otherPresent above same
    rcases Nat.lt_or_ge middle.nextDocumentGeneration doc.generation with late | early
    · exact final.distinct key other doc another present otherPresent late same
    · exact initial.distinct key other doc another (final.old present early)
        (final.old otherPresent (by omega)) above same

end Reconciles

/-! ## The sections -/

namespace Store

theorem retain_reconciles {store : Store}
    (bounded : store.Assigned) (isFound : found.lookup key = some next)
    (differs : ∀ current, store.documents.lookup key = some current →
      current.reading ≠ next.reading) :
    Reconciles store (store.retain key (successor (store.documents.lookup key) next))
      (· = key) found := by
  have others : ∀ other, other ≠ key →
      (store.retain key (successor (store.documents.lookup key) next)).documents.lookup other =
        store.documents.lookup other :=
    fun other different => AList.lookup_insert_ne different
  have here : (store.retain key
      (successor (store.documents.lookup key) next)).documents.lookup key =
      some ((successor (store.documents.lookup key) next).withGeneration
        (store.nextDocumentGeneration + 1)) :=
    AList.lookup_insert _
  refine ⟨others, ?_, Nat.le_succ _, ?_⟩
  · intro other same
    subst same
    rw [here, isFound]
    cases known : store.documents.lookup other with
    | none => exact .appeared next _ (Nat.lt_succ_self _) (Nat.le_refl _)
    | some current =>
      exact .changed current next _ (differs current known) (Nat.lt_succ_self _) (Nat.le_refl _)
  · -- the only document with the new generation is the one retained
    have fresh : ∀ candidate doc,
        (store.retain key (successor (store.documents.lookup key) next)).documents.lookup
          candidate = some doc →
        store.nextDocumentGeneration < doc.generation → candidate = key := by
      intro candidate doc present above
      by_contra different
      rw [others candidate different] at present
      exact absurd (bounded candidate doc present) (Nat.not_le_of_gt above)
    intro first second doc another present otherPresent above same
    rw [fresh first doc present above, fresh second another otherPresent (same ▸ above)]

/-- What a section leaves alone when it changes documents. -/
structure SameFrame (before after : Store) : Prop where
  state : after.state = before.state
  closing : after.closing = before.closing
  watching : after.watching = before.watching
  explicitPaths : after.explicitPaths = before.explicitPaths

variable {first second third : Store} (store : Store)

theorem SameFrame.refl : SameFrame store store :=
  ⟨rfl, rfl, rfl, rfl⟩

theorem SameFrame.trans (left : SameFrame first second) (right : SameFrame second third) :
    SameFrame first third :=
  ⟨right.state.trans left.state, right.closing.trans left.closing,
    right.watching.trans left.watching, right.explicitPaths.trans left.explicitPaths⟩

/-- What the loops of `applyContentLocked` leave to the indexes. -/
structure Indexing (before after : Store) (changed : Bool) : Prop where
  frame : SameFrame before after
  order : after.order = before.order
  files : after.files = before.files
  members : changed = false → ∀ key, key ∈ after.documents ↔ key ∈ before.documents

theorem Indexing.refl (changed : Bool) : Indexing store store changed :=
  ⟨SameFrame.refl store, rfl, rfl, fun _ _ => Iff.rfl⟩

theorem retainAll_changed (changed : Bool)
    (was : (retainAll found keys (store, changed)).2 = false) : changed = false := by
  induction keys generalizing store changed with
  | nil => exact was
  | cons _ _ ih =>
    unfold retainAll at was
    dsimp only at was
    split at was
    · split at was
      · exact ih store changed was
      · exact ih _ changed was
    · have impossible := ih _ true was
      cases impossible

theorem retainAll_indexing (found : DocumentMap) (keys : List Key) (store : Store)
    (changed : Bool) :
    Indexing store (retainAll found keys (store, changed)).1
      (retainAll found keys (store, changed)).2 := by
  induction keys generalizing store changed with
  | nil => exact Indexing.refl store changed
  | cons key rest ih =>
    have retained : ∀ doc flag,
        (flag = true ∨ key ∈ store.documents) →
          Indexing store (retainAll found rest (store.retain key doc, flag)).1
            (retainAll found rest (store.retain key doc, flag)).2 := by
      intro doc flag known
      obtain ⟨frame, order, files, members⟩ :=
        ih (store.retain key doc) flag
      have same : SameFrame store (store.retain key doc) := ⟨rfl, rfl, rfl, rfl⟩
      refine ⟨same.trans frame, order, files, ?_⟩
      intro unchanged other
      rw [members unchanged other]
      have unflagged := retainAll_changed _ flag unchanged
      rcases known with flagged | present
      · rw [flagged] at unflagged
        cases unflagged
      show other ∈ store.documents.insert key _ ↔ other ∈ store.documents
      rw [AList.mem_insert]
      constructor
      · rintro (rfl | before)
        · exact present
        · exact before
      · exact .inr
    unfold retainAll
    dsimp only
    split
    next current known =>
      split
      · exact ih store changed
      · refine retained _ changed (.inr ?_)
        rw [← AList.lookup_isSome, known]
        rfl
    · exact retained _ true (.inl rfl)

theorem retainAll_reconciles {store : Store} (changed : Bool) (bounded : store.Assigned)
    (nodup : keys.Nodup) (present : ∀ key ∈ keys, key ∈ found) :
    Reconciles store (retainAll found keys (store, changed)).1 (· ∈ keys) found := by
  induction keys generalizing store changed with
  | nil => exact (Reconciles.refl store bounded found).congr_scope (by simp)
  | cons key rest ih =>
    obtain ⟨absent, nodupRest⟩ := nodup_cons.mp nodup
    have presentRest : ∀ other ∈ rest, other ∈ found :=
      fun other inRest => present other (mem_cons_of_mem key inRest)
    obtain ⟨next, isFound⟩ : ∃ next, found.lookup key = some next :=
      Option.isSome_iff_exists.mp (AList.lookup_isSome.mpr (present key mem_cons_self))
    have single : ∀ middle flag, Reconciles store middle (· = key) found →
        Reconciles store (retainAll found rest (middle, flag)).1 (· ∈ key :: rest) found := by
      intro middle flag initial
      have final := ih flag (initial.assigned bounded) nodupRest presentRest
      refine (initial.trans final ?_).congr_scope ?_
      · intro other same inRest
        subst same
        exact absent inRest
      · intro other
        exact mem_cons.symm
    have default : (found.lookup key).getD Inhabited.default = next := by
      rw [isFound]
      rfl
    unfold retainAll
    dsimp only
    rw [default]
    split
    next current known =>
      split
      next same =>
        have unchanged := Document.sameState_iff.mp same
        have stays : Reconciles store store (· = key) found := by
          refine ⟨fun _ _ => rfl, ?_, Nat.le_refl _, ?_⟩
          · intro other isKey
            subst isKey
            rw [known, isFound]
            exact .same current next unchanged
          · exact (Reconciles.refl store bounded found).distinct
        exact single store changed stays
      next different =>
        refine single _ changed ?_
        rw [← known]
        refine retain_reconciles bounded isFound ?_
        intro other isCurrent
        rw [known] at isCurrent
        cases isCurrent
        exact fun unchanged => different (Document.sameState_iff.mpr unchanged)
    next unknown =>
      refine single _ true ?_
      have retained := retain_reconciles bounded isFound (by
        intro other isCurrent
        rw [unknown] at isCurrent
        cases isCurrent)
      rw [unknown] at retained
      exact retained

/-- The keys that the first loop of `applyContentLocked` drops. -/
def dropped (subtree : Key) (found : DocumentMap) (key : Key) : Bool :=
  workspacePathInSubtree key subtree && !(found.lookup key).isSome

variable (subtree : Key)

theorem dropMissing_lookup (found : DocumentMap) (keys : List Key) (store : Store)
    (changed : Bool) (key : Key) :
    (dropMissing subtree found keys (store, changed)).1.documents.lookup key =
      if key ∈ keys ∧ dropped subtree found key = true then
        none
      else
        store.documents.lookup key := by
  induction keys generalizing store changed with
  | nil => simp [dropMissing]
  | cons other _ ih =>
    unfold dropMissing
    split
    next drops =>
      rw [ih]
      by_cases same : key = other
      · subst same
        have isDropped : dropped subtree found key = true := drops
        simp [isDropped]
      · simp [same, AList.lookup_erase_ne same]
    next keeps =>
      rw [ih]
      by_cases same : key = other
      · subst same
        have isKept : dropped subtree found key = false := Bool.eq_false_iff.mpr keeps
        simp [isKept]
      · simp [same]

theorem dropMissing_generation (found : DocumentMap) (keys : List Key) (store : Store)
    (changed : Bool) :
    (dropMissing subtree found keys (store, changed)).1.nextDocumentGeneration =
      store.nextDocumentGeneration := by
  induction keys generalizing store changed with
  | nil => rfl
  | cons _ _ ih =>
    unfold dropMissing
    split <;> rw [ih]

theorem dropMissing_changed {subtree : Key} (changed : Bool)
    (was : (dropMissing subtree found keys (store, changed)).2 = false) :
    changed = false ∧ (dropMissing subtree found keys (store, changed)).1 = store := by
  induction keys generalizing store changed with
  | nil => exact ⟨was, rfl⟩
  | cons _ _ ih =>
    unfold dropMissing at was ⊢
    split at was
    · have impossible := (ih _ true was).1
      cases impossible
    next keeps =>
      rw [if_neg keeps]
      exact ih store changed was

theorem dropMissing_indexing (found : DocumentMap) (keys : List Key) (store : Store)
    (changed : Bool) :
    Indexing store (dropMissing subtree found keys (store, changed)).1
      (dropMissing subtree found keys (store, changed)).2 := by
  induction keys generalizing store changed with
  | nil => exact Indexing.refl store changed
  | cons other _ ih =>
    unfold dropMissing
    split
    · obtain ⟨frame, order, files, _⟩ :=
        ih { store with documents := store.documents.erase other } true
      have same : SameFrame store { store with documents := store.documents.erase other } :=
        ⟨rfl, rfl, rfl, rfl⟩
      refine ⟨same.trans frame, order, files, ?_⟩
      intro unchanged
      have impossible := (dropMissing_changed _ true unchanged).1
      cases impossible
    · exact ih store changed

theorem dropMissing_reconciles {store : Store} (found : DocumentMap)
    (bounded : store.Assigned) (changed : Bool) :
    Reconciles store (dropMissing subtree found store.documents.keys (store, changed)).1
      (fun key => dropped subtree found key = true) found := by
  have lookup := dropMissing_lookup subtree found store.documents.keys store changed
  have generation := dropMissing_generation subtree found store.documents.keys store changed
  have kept : ∀ key doc,
      (dropMissing subtree found store.documents.keys (store, changed)).1.documents.lookup key =
        some doc → store.documents.lookup key = some doc := by
    intro key doc present
    rw [lookup] at present
    split at present
    · cases present
    · exact present
  refine ⟨?_, ?_, Nat.le_of_eq generation.symm, ?_⟩
  · intro key outside
    rw [lookup, if_neg fun drops => outside drops.2]
  · intro key drops
    have unfound : found.lookup key = none := by
      simp only [dropped, Bool.and_eq_true, Bool.not_eq_true', Option.isSome_eq_false_iff,
        Option.isNone_iff_eq_none] at drops
      exact drops.2
    have none : (dropMissing subtree found store.documents.keys
        (store, changed)).1.documents.lookup key = none := by
      rw [lookup]
      split
      · rfl
      next stays =>
        refine AList.lookup_eq_none.mpr fun present => stays ⟨present, drops⟩
    rw [unfound, none]
    exact .gone _
  · intro key other doc another present otherPresent above same
    exact absurd (bounded key doc (kept key doc present)) (Nat.not_le_of_gt above)

/-! ## Soundness -/

end Store

/-- The indexes list exactly the retained documents, in order; every document is of its
key's file, and no two share a generation. -/
structure Store.Sound (site : Site) (store : Store) : Prop where
  sorted : store.order.Pairwise fun left right => pathText left < pathText right
  keys : ∀ key, key ∈ store.order ↔ key ∈ store.documents
  files : store.files = store.order.map (fileOf site)
  documents :
    ∀ key doc, store.documents.lookup key = some doc → doc.file = fileOf site key
  assigned : store.Assigned
  distinct :
    ∀ key other doc second, store.documents.lookup key = some doc →
      store.documents.lookup other = some second →
        doc.generation = second.generation → key = other

/-- The documents that a commit finds are of their keys' files. -/
def OfTheirFiles (site : Site) (documents : DocumentMap) : Prop :=
  ∀ key doc, documents.lookup key = some doc → doc.file = fileOf site key

theorem Reconciles.ofTheirFiles (reconciles : Reconciles before after scope found)
    (retained : OfTheirFiles site before.documents) (files : OfTheirFiles site found) :
    OfTheirFiles site after.documents := by
  intro key doc present
  by_cases inside : scope key
  · have reconciled := reconciles.inside key inside
    rw [present] at reconciled
    generalize known : before.documents.lookup key = current at reconciled
    generalize isFound : found.lookup key = finding at reconciled
    cases reconciled with
    | same => exact retained key doc known
    | changed _ next | appeared next => exact files key next isFound
  · rw [reconciles.outside key inside] at present
    exact retained key doc present

namespace Store

theorem Sound.of_reconciles (sound : before.Sound site)
    (reconciles : Reconciles before after scope found) (files : OfTheirFiles site found)
    (sorted : after.order.Pairwise fun left right => pathText left < pathText right)
    (keys : ∀ key, key ∈ after.order ↔ key ∈ after.documents)
    (listed : after.files = after.order.map (fileOf site)) : after.Sound site := by
  refine ⟨sorted, keys, listed, reconciles.ofTheirFiles sound.documents files,
    reconciles.assigned sound.assigned, ?_⟩
  · intro key other doc another present otherPresent same
    rcases Nat.lt_or_ge before.nextDocumentGeneration doc.generation with late | early
    · exact reconciles.distinct key other doc another present otherPresent late same
    · exact sound.distinct key other doc another (reconciles.old present early)
        (reconciles.old otherPresent (by omega)) same

variable {content : WorkspaceContent} {subtree other : Key} {discovered : Option Document}
  {explicit : Bool} (store : Store)

theorem rebuildIndexes_keys (key : Key) :
    key ∈ store.rebuildIndexes.order ↔ key ∈ store.rebuildIndexes.documents := by
  show key ∈ sortKeys store.documents.keys ↔ key ∈ store.documents
  rw [mem_sortKeys, AList.mem_keys]

theorem rebuildIndexes_files {store : Store} (files : OfTheirFiles site store.documents) :
    store.rebuildIndexes.files = store.rebuildIndexes.order.map (fileOf site) := by
  refine map_congr_left ?_
  intro key present
  have isKey : key ∈ store.documents := by
    rw [AList.mem_keys, ← mem_sortKeys]
    exact present
  obtain ⟨doc, known⟩ := Option.isSome_iff_exists.mp (AList.lookup_isSome.mpr isKey)
  rw [known]
  exact files key doc known

theorem Sound.reindex (sound : before.Sound site)
    (reconciles : Reconciles before after scope found) (files : OfTheirFiles site found)
    {changed : Bool} (indexing : Indexing before after changed) :
    (if changed then after.rebuildIndexes else after).Sound site := by
  cases changed with
  | true =>
    have ofFiles := reconciles.ofTheirFiles sound.documents files
    have rebuilt : Reconciles before after.rebuildIndexes scope found :=
      ⟨reconciles.outside, reconciles.inside, reconciles.grows, reconciles.distinct⟩
    exact sound.of_reconciles rebuilt files (sortKeys_sorted after.documents.keys_nodup)
      (rebuildIndexes_keys after) (rebuildIndexes_files ofFiles)
  | false =>
    have sameKeys := indexing.members rfl
    refine sound.of_reconciles reconciles files ?_ ?_ ?_
    · show after.order.Pairwise _
      rw [indexing.order]
      exact sound.sorted
    · intro key
      show key ∈ after.order ↔ key ∈ after.documents
      rw [indexing.order, sameKeys key]
      exact sound.keys key
    · show after.files = after.order.map _
      rw [indexing.files, indexing.order]
      exact sound.files

/-! ## `applyContentLocked` -/

/-- The keys that a commit of a subtree decides. -/
def inContent (subtree : Key) (content : WorkspaceContent) (key : Key) : Prop :=
  workspacePathInSubtree key subtree = true ∨ key ∈ content.order

theorem applyLoops_reconciles {store : Store} (bounded : store.Assigned)
    (coherent : content.Coherent site) :
    Reconciles store (store.applyLoops subtree content).1 (inContent subtree content)
      content.documents := by
  have dropping := dropMissing_reconciles subtree content.documents bounded false
  have retaining := retainAll_reconciles
    (dropMissing subtree content.documents store.documents.keys (store, false)).2
    (dropping.assigned bounded) coherent.nodup fun key present => (coherent.keys key).mp present
  have disjoint : ∀ key, dropped subtree content.documents key = true → key ∉ content.order := by
    intro key drops present
    have isFound := AList.lookup_isSome.mpr ((coherent.keys key).mp present)
    simp [dropped, isFound] at drops
  refine (dropping.trans retaining disjoint).congr_scope ?_
  intro key
  unfold inContent dropped
  by_cases isFound : (content.documents.lookup key).isSome
  · have listed := (coherent.keys key).mpr (AList.lookup_isSome.mp isFound)
    simp [isFound, listed]
  · have unlisted : key ∉ content.order := fun present =>
      isFound (AList.lookup_isSome.mpr ((coherent.keys key).mp present))
    simp [isFound, unlisted]

theorem applyContent_reconciles {store : Store} (bounded : store.Assigned)
    (coherent : content.Coherent site) :
    Reconciles store (store.applyContent subtree content) (inContent subtree content)
      content.documents := by
  have applied : Reconciles store (store.applyLoops subtree content).1
      (inContent subtree content) content.documents :=
    applyLoops_reconciles bounded coherent
  unfold applyContent
  dsimp only
  split
  · exact ⟨applied.outside, applied.inside, applied.grows, applied.distinct⟩
  · exact applied

theorem applyLoops_indexing (subtree : Key) (content : WorkspaceContent) :
    Indexing store (store.applyLoops subtree content).1 (store.applyLoops subtree content).2 := by
  have dropping := dropMissing_indexing subtree content.documents store.documents.keys store false
  have retaining := retainAll_indexing content.documents content.order
    (dropMissing subtree content.documents store.documents.keys (store, false)).1
    (dropMissing subtree content.documents store.documents.keys (store, false)).2
  refine ⟨dropping.frame.trans retaining.frame, retaining.order.trans dropping.order,
    retaining.files.trans dropping.files, ?_⟩
  intro unchanged key
  have earlier := retainAll_changed _ _ unchanged
  exact (retaining.members unchanged key).trans (dropping.members earlier key)

theorem Sound.applyContent {store : Store} (sound : store.Sound site) (subtree : Key)
    (coherent : content.Coherent site) :
    (store.applyContent subtree content).Sound site := by
  have files : OfTheirFiles site content.documents := fun key doc present =>
    (coherent.fresh key doc present).1
  exact sound.reindex (applyLoops_reconciles sound.assigned coherent) files
    (applyLoops_indexing store subtree content)

theorem applyContent_frame (subtree : Key) (content : WorkspaceContent) :
    SameFrame store (store.applyContent subtree content) := by
  have frame := (applyLoops_indexing store subtree content).frame
  unfold Store.applyContent
  dsimp only
  split
  · exact ⟨frame.state, frame.closing, frame.watching, frame.explicitPaths⟩
  · exact frame

/-! ## `reconcileDocument` -/

/-- What a reconciliation of one document has found, as a map. -/
def finding (key : Key) (discovered : Option Document) : DocumentMap :=
  match discovered with
  | some doc => AList.singleton key doc
  | none => ∅

theorem finding_lookup (key : Key) (discovered : Option Document) :
    (finding key discovered).lookup key = discovered := by
  cases discovered with
  | none => rfl
  | some =>
    rw [finding, ← AList.insert_empty]
    exact AList.lookup_insert _

theorem finding_some (present : (finding key discovered).lookup other = some doc) :
    other = key ∧ discovered = some doc := by
  have same : other = key := by
    by_contra different
    cases discovered with
    | none => cases present
    | some =>
      rw [finding, ← AList.insert_empty, AList.lookup_insert_ne different] at present
      cases present
  subst same
  rw [finding_lookup] at present
  exact ⟨rfl, present⟩

/-- The explicit paths change and nothing else. -/
structure SameDocuments (before after : Store) : Prop where
  documents : after.documents = before.documents
  order : after.order = before.order
  files : after.files = before.files
  generation : after.nextDocumentGeneration = before.nextDocumentGeneration

theorem SameDocuments.sound (same : SameDocuments before after) (sound : before.Sound site) :
    after.Sound site := by
  obtain ⟨documents, order, files, generation⟩ := same
  refine ⟨by rw [order]; exact sound.sorted, by rw [order, documents]; exact sound.keys,
    by rw [files, order]; exact sound.files, by rw [documents]; exact sound.documents, ?_,
    by rw [documents]; exact sound.distinct⟩
  intro key doc present
  rw [documents] at present
  rw [generation]
  exact sound.assigned key doc present

theorem SameDocuments.reconciles (same : SameDocuments before middle)
    (reconciles : Reconciles middle after scope found) :
    Reconciles before after scope found := by
  obtain ⟨outside, inside, grows, distinct⟩ := reconciles
  rw [same.documents, same.generation] at inside
  rw [same.documents] at outside
  rw [same.generation] at grows distinct
  exact ⟨outside, inside, grows, distinct⟩

/-- The store with the selection that `reconcileDocument` admits. -/
def admitting (store : Store) (explicit : Bool) (key : Key) : Store :=
  if explicit then store.enroll key else store

theorem admitting_documents (explicit : Bool) (key : Key) :
    SameDocuments store (store.admitting explicit key) := by
  unfold admitting
  split
  · unfold enroll
    split <;> exact ⟨rfl, rfl, rfl, rfl⟩
  · exact ⟨rfl, rfl, rfl, rfl⟩

theorem retain_indexing (key : Key) (doc : Document) (changed : Bool)
    (known : changed = true ∨ key ∈ store.documents) :
    Indexing store (store.retain key doc) changed := by
  refine ⟨⟨rfl, rfl, rfl, rfl⟩, rfl, rfl, ?_⟩
  intro unchanged other
  rcases known with flagged | present
  · rw [flagged] at unchanged
    cases unchanged
  show other ∈ store.documents.insert key _ ↔ other ∈ store.documents
  rw [AList.mem_insert]
  constructor
  · rintro (rfl | before)
    · exact present
    · exact before
  · exact .inr

theorem erase_reconciles {store : Store} (bounded : store.Assigned) (key : Key) :
    Reconciles store { store with documents := store.documents.erase key } (· = key)
      (finding key none) := by
  refine ⟨fun other different => AList.lookup_erase_ne different, ?_, Nat.le_refl _, ?_⟩
  · intro other same
    subst same
    show Reconciled _ _ _ none ((store.documents.erase other).lookup other)
    rw [AList.lookup_erase]
    exact .gone _
  · intro first second doc another present _ above _
    have before : store.documents.lookup first = some doc := by
      by_cases same : first = key
      · subst same
        have impossible := present
        rw [show ({ store with documents := store.documents.erase first } : Store).documents =
          store.documents.erase first from rfl, AList.lookup_erase] at impossible
        cases impossible
      · exact (AList.lookup_erase_ne same).symm.trans present
    exact absurd (bounded first doc before) (Nat.not_le_of_gt above)

/-- What `reconcileDocument` commits. -/
structure DocumentCommit (site : Site) (store after : Store) (key : Key)
    (explicit : Bool) (discovered : Option Document) : Prop where
  reconciles : Reconciles store after (· = key) (finding key discovered)
  sound : after.Sound site
  state : after.state = store.state
  explicitPaths :
    after.explicitPaths = (store.admitting (explicit && discovered.isSome) key).explicitPaths

theorem commitDocument_spec {store : Store} (sound : store.Sound site)
    (first : ∀ doc ∈ discovered, doc.FirstOf site key) (explicit admitted : Bool) :
    DocumentCommit site store (store.commitDocument key explicit admitted discovered).1 key
      explicit discovered := by
  have files : OfTheirFiles site (finding key discovered) := by
    intro other doc present
    obtain ⟨same, isFound⟩ := finding_some present
    rw [same]
    exact (first doc isFound).1
  cases discovered with
  | none =>
    simp only [commitDocument]
    split
    · have erased := erase_reconciles sound.assigned key
      have indexing : Indexing store { store with documents := store.documents.erase key }
          true :=
        ⟨⟨rfl, rfl, rfl, rfl⟩, rfl, rfl, nofun⟩
      refine ⟨⟨erased.outside, erased.inside, erased.grows, erased.distinct⟩,
        sound.reindex erased files indexing, rfl, ?_⟩
      simp [admitting, rebuildIndexes]
    next absent =>
      refine ⟨?_, sound, rfl, by simp [admitting]⟩
      refine ⟨fun _ _ => rfl, ?_, Nat.le_refl _,
        (Reconciles.refl store sound.assigned ∅).distinct⟩
      intro other same
      subst same
      have none : store.documents.lookup other = none := by simpa using absent
      rw [none]
      exact .gone _
  | some next =>
    have same := admitting_documents store explicit key
    have base := same.sound sound
    have isFound : (finding key (some next)).lookup key = some next := finding_lookup key _
    have paths : (store.admitting explicit key).explicitPaths =
        (store.admitting (explicit && (some next).isSome) key).explicitPaths := by
      simp
    have state : (store.admitting explicit key).state = store.state := by
      unfold admitting enroll
      split
      · split <;> rfl
      · rfl
    have retained : (∀ current, store.documents.lookup key = some current →
        current.reading ≠ next.reading) →
        Reconciles (store.admitting explicit key)
          ((store.admitting explicit key).retain key
            (successor (store.documents.lookup key) next)) (· = key)
          (finding key (some next)) := by
      intro differs
      have law := retain_reconciles base.assigned isFound (by
        rw [same.documents]
        exact differs)
      rw [same.documents] at law
      exact law
    cases known : store.documents.lookup key with
    | none =>
      rw [known] at retained
      have law := retained nofun
      simp only [commitDocument, known]
      refine ⟨same.reconciles ⟨law.outside, law.inside, law.grows, law.distinct⟩,
        base.reindex law files (retain_indexing _ key next true (.inl rfl)), state, paths⟩
    | some current =>
      rw [known] at retained
      simp only [commitDocument, known]
      split
      next unchanged =>
        refine ⟨?_, base, state, paths⟩
        refine same.reconciles ⟨fun _ _ => rfl, ?_, Nat.le_refl _,
          (Reconciles.refl _ base.assigned ∅).distinct⟩
        intro other isKey
        subst isKey
        rw [isFound]
        show Reconciled _ _ ((store.admitting explicit other).documents.lookup other) _
          ((store.admitting explicit other).documents.lookup other)
        rw [same.documents, known]
        exact .same current next (Document.sameState_iff.mp unchanged)
      next changed =>
        have law := retained (by
          intro other isCurrent
          cases isCurrent
          exact fun unchanged => changed (Document.sameState_iff.mpr unchanged))
        have member : key ∈ (store.admitting explicit key).documents := by
          rw [← AList.lookup_isSome, same.documents, known]
          rfl
        exact ⟨same.reconciles law,
          base.reindex law files (retain_indexing _ key _ false (.inr member)), state,
          paths⟩

/-! ## `setReady` -/

variable (documents : DocumentMap)

theorem stamp_generation (generation : Nat) (keys : List Key) :
    (stamp documents generation keys).2 = generation + keys.length := by
  induction keys generalizing documents generation with
  | nil => rfl
  | cons _ _ ih =>
    simp only [stamp, ih, length_cons]
    omega

theorem stamp_lookup_of_notMem (generation : Nat) (absent : key ∉ keys) :
    (stamp documents generation keys).1.lookup key = documents.lookup key := by
  induction keys generalizing documents generation with
  | nil => rfl
  | cons _ _ ih =>
    rw [mem_cons, not_or] at absent
    rw [stamp, ih _ _ absent.2, AList.lookup_insert_ne absent.1]

theorem stamp_lookup (generation : Nat) (nodup : keys.Nodup) (present : key ∈ keys)
    (known : documents.lookup key = some doc) :
    (stamp documents generation keys).1.lookup key =
      some (doc.withGeneration (generation + keys.idxOf key + 1)) := by
  induction keys generalizing documents generation with
  | nil => cases present
  | cons other _ ih =>
    obtain ⟨absent, nodupRest⟩ := nodup_cons.mp nodup
    rw [stamp]
    by_cases same : key = other
    · subst same
      rw [stamp_lookup_of_notMem _ _ absent, AList.lookup_insert, known]
      simp
    have inRest := (mem_cons.mp present).resolve_left same
    have different : other ≠ key := fun equal => same equal.symm
    rw [ih _ _ nodupRest inRest (by rw [AList.lookup_insert_ne same]; exact known),
      idxOf_cons_ne _ different]
    congr 2
    omega

theorem setReady_reconciles (coherent : content.Coherent site) :
    Reconciles { store with documents := ∅ } (store.setReady content) (fun _ => True)
      content.documents := by
  have generation : (store.setReady content).nextDocumentGeneration =
      store.nextDocumentGeneration + content.order.length :=
    stamp_generation _ _ _
  have located : ∀ key doc, content.documents.lookup key = some doc →
      (store.setReady content).documents.lookup key =
        some (doc.withGeneration (store.nextDocumentGeneration + content.order.idxOf key + 1)) ∧
        content.order.idxOf key < content.order.length := by
    intro key doc known
    have present : key ∈ content.order := by
      rw [coherent.keys, ← AList.lookup_isSome, known]
      rfl
    exact ⟨stamp_lookup _ _ coherent.nodup present known, idxOf_lt_length_iff.mpr present⟩
  have missing : ∀ key, content.documents.lookup key = none →
      (store.setReady content).documents.lookup key = none := by
    intro key unknown
    have absent : key ∉ content.order := by
      rw [coherent.keys]
      exact AList.lookup_eq_none.mp unknown
    exact (stamp_lookup_of_notMem _ _ absent).trans unknown
  refine ⟨fun _ outside => absurd trivial outside, ?_,
    by rw [generation]; exact Nat.le_add_right _ _, ?_⟩
  · intro key _
    show Reconciled _ _ none _ _
    cases known : content.documents.lookup key with
    | none =>
      rw [missing key known]
      exact .gone none
    | some doc =>
      obtain ⟨stamped, inside⟩ := located key doc known
      rw [stamped, generation]
      exact .appeared doc _ (by dsimp only; omega) (by omega)
  · intro key other doc another present otherPresent _ same
    obtain ⟨first, known⟩ : ∃ first, content.documents.lookup key = some first := by
      cases known : content.documents.lookup key with
      | none =>
        rw [missing key known] at present
        cases present
      | some first => exact ⟨first, rfl⟩
    obtain ⟨second, otherKnown⟩ : ∃ second, content.documents.lookup other = some second := by
      cases known : content.documents.lookup other with
      | none =>
        rw [missing other known] at otherPresent
        cases otherPresent
      | some second => exact ⟨second, rfl⟩
    obtain ⟨stamped, inside⟩ := located key first known
    obtain ⟨otherStamped, _⟩ := located other second otherKnown
    rw [stamped] at present
    rw [otherStamped] at otherPresent
    cases present
    cases otherPresent
    have pos : content.order.idxOf key = content.order.idxOf other := by
      simp only [Document.withGeneration] at same
      omega
    exact (idxOf_inj (idxOf_lt_length_iff.mp inside)).mp pos

theorem Sound.setReady (coherent : content.Coherent site) (indexed : content.Indexed site) :
    (store.setReady content).Sound site := by
  have empty : ({ store with documents := ∅, order := [], files := [] } : Store).Sound site :=
    ⟨List.Pairwise.nil, by simp, rfl, by simp, by simp [Assigned], by simp⟩
  have reconciles := setReady_reconciles store coherent
  refine empty.of_reconciles
    ⟨reconciles.outside, reconciles.inside, reconciles.grows, reconciles.distinct⟩
    (fun key doc present => (coherent.fresh key doc present).1) indexed.sorted ?_
    indexed.files
  intro key
  show key ∈ content.order ↔ key ∈ (store.setReady content).documents
  have reconciled := reconciles.inside key trivial
  rw [coherent.keys, ← AList.lookup_isSome, ← AList.lookup_isSome]
  revert reconciled
  show Reconciled _ _ none _ _ → _
  generalize content.documents.lookup key = found
  generalize (store.setReady content).documents.lookup key = after
  intro reconciled
  cases reconciled with
  | gone => exact Iff.rfl
  | appeared => exact ⟨fun _ => rfl, fun _ => rfl⟩

/-! ## The readings of the store after a commit -/

/-- What a store retains of the file system under a key. -/
def readingAt (key : Key) : Option Document.Reading :=
  (store.documents.lookup key).map Document.reading

theorem mem_iff_readingAt :
    key ∈ store.documents ↔ (store.readingAt key).isSome = true := by
  rw [readingAt, Option.isSome_map, AList.lookup_isSome]

theorem retain_readingAt (key other : Key) :
    (store.retain key (successor current next)).readingAt other =
      if other = key then some next.reading else store.readingAt other := by
  have here : (successor current next).reading = next.reading := by
    cases current <;> rfl
  show ((store.documents.insert key _).lookup other).map Document.reading = _
  split_ifs with same
  · rw [same, AList.lookup_insert]
    exact congrArg some here
  · rw [AList.lookup_insert_ne same]
    rfl

theorem retainAll_readingAt (found : DocumentMap) (keys : List Key) (store : Store)
    (changed : Bool) (key : Key) :
    (retainAll found keys (store, changed)).1.readingAt key =
      if key ∈ keys then
        some ((found.lookup key).getD default).reading
      else
        store.readingAt key := by
  induction keys generalizing store changed with
  | nil => simp [retainAll]
  | cons other rest ih =>
    have retained (current : Option Document) (flag : Bool) :
        (retainAll found rest (store.retain other
          (successor current ((found.lookup other).getD default)), flag)).1.readingAt key =
        if key ∈ other :: rest then
          some ((found.lookup key).getD default).reading
        else
          store.readingAt key := by
      rw [ih, retain_readingAt]
      by_cases same : key = other
      · subst same
        simp
      · simp [same]
    unfold retainAll
    dsimp only
    split
    next current known =>
      split
      next unchanged =>
        have here := Document.sameState_iff.mp unchanged
        rw [ih]
        by_cases same : key = other
        · subst same
          simp [readingAt, known, here]
        · simp [same]
      · exact retained (some current) changed
    · exact retained none true

theorem applyContent_readingAt (coherent : content.Coherent site) (store : Store)
    (subtree key : Key) :
    (store.applyContent subtree content).readingAt key =
      ((content.documents.lookup key).map Document.reading).or
        (if workspacePathInSubtree key subtree then none else store.readingAt key) := by
  have documents : (store.applyContent subtree content).readingAt key =
      (store.applyLoops subtree content).1.readingAt key := by
    unfold applyContent
    dsimp only
    split <;> rfl
  rw [documents, applyLoops, retainAll_readingAt]
  by_cases listed : key ∈ content.order
  · have found := AList.lookup_isSome.mpr ((coherent.keys key).mp listed)
    obtain ⟨doc, isFound⟩ := Option.isSome_iff_exists.mp found
    simp [listed, isFound]
  have unknown : content.documents.lookup key = none :=
    AList.lookup_eq_none.mpr fun found => listed ((coherent.keys key).mpr found)
  rw [if_neg listed, unknown, readingAt, dropMissing_lookup]
  cases inside : workspacePathInSubtree key subtree with
  | false => simp [dropped, inside, readingAt]
  | true =>
    by_cases present : key ∈ store.documents.keys
    · simp [dropped, unknown, inside, present]
    · have missing : store.documents.lookup key = none := AList.lookup_eq_none.mpr present
      simp [missing]

theorem mem_applyContent (coherent : content.Coherent site) (store : Store) (subtree key : Key) :
    key ∈ (store.applyContent subtree content).documents ↔
      key ∈ content.documents ∨ ¬subtree <+: key ∧ key ∈ store.documents := by
  rw [mem_iff_readingAt, applyContent_readingAt coherent, Option.isSome_or, Bool.or_eq_true,
    Option.isSome_map, AList.lookup_isSome, mem_iff_readingAt, ← workspacePathInSubtree_iff]
  cases workspacePathInSubtree key subtree <;> simp

theorem commitDocument_readingAt (key : Key) (explicit admitted : Bool)
    (discovered : Option Document) (other : Key) :
    (store.commitDocument key explicit admitted discovered).1.readingAt other =
      if other = key then discovered.map Document.reading else store.readingAt other := by
  have admits : ∀ flag : Bool,
      (if flag then store.enroll key else store).readingAt other = store.readingAt other :=
    fun flag => congrArg (fun documents => (documents.lookup other).map Document.reading)
      (admitting_documents store flag key).documents
  cases discovered with
  | none =>
    simp only [commitDocument]
    split
    · show ((store.documents.erase key).lookup other).map Document.reading = _
      by_cases same : other = key
      · subst same
        simp [AList.lookup_erase]
      · simp [same, AList.lookup_erase_ne same, readingAt]
    next absent =>
      by_cases same : other = key
      · subst same
        simpa [readingAt] using absent
      · simp [same]
  | some next =>
    simp only [commitDocument]
    cases known : store.documents.lookup key with
    | some current =>
      dsimp only
      split
      next unchanged =>
        rw [admits]
        by_cases same : other = key
        · subst same
          simp [readingAt, known, Document.sameState_iff.mp unchanged]
        · simp [same]
      · rw [retain_readingAt, admits]
        rfl
    | none =>
      show ((if explicit then store.enroll key else store).retain key
        (successor none next)).readingAt other = _
      rw [retain_readingAt, admits]
      rfl

theorem mem_commitDocument (key : Key) (explicit admitted : Bool)
    (discovered : Option Document) (other : Key) :
    other ∈ (store.commitDocument key explicit admitted discovered).1.documents ↔
      if other = key then discovered.isSome = true else other ∈ store.documents := by
  rw [mem_iff_readingAt, commitDocument_readingAt, mem_iff_readingAt]
  split_ifs
  · rw [Option.isSome_map]
  · rfl

theorem mem_admitting {store : Store} :
    other ∈ (store.admitting explicit key).explicitPaths ↔
      other ∈ store.explicitPaths ∨ explicit = true ∧ other = key := by
  unfold Store.admitting Store.enroll
  split
  next isExplicit =>
    split
    next known =>
      constructor
      · exact .inl
      · rintro (present | ⟨_, rfl⟩)
        · exact present
        · exact known
    · simp [isExplicit]
  next implicit =>
    simp [implicit]

section

variable (key : Key) (explicit admitted : Bool) (discovered : Option Document)

theorem commitDocument_explicitPaths :
    (store.commitDocument key explicit admitted discovered).1.explicitPaths =
      (store.admitting (explicit && discovered.isSome) key).explicitPaths := by
  cases discovered with
  | none =>
    rw [Option.isSome_none, Bool.and_false]
    simp only [commitDocument]
    split <;> rfl
  | some =>
    rw [Option.isSome_some, Bool.and_true]
    simp only [commitDocument]
    split
    · split
      · rfl
      · rfl
    · rfl

theorem commitDocument_frame :
    (store.commitDocument key explicit admitted discovered).1.state = store.state ∧
      (store.commitDocument key explicit admitted discovered).1.closing = store.closing := by
  have admits : (if explicit then store.enroll key else store).state = store.state ∧
      (if explicit then store.enroll key else store).closing = store.closing := by
    unfold enroll
    split
    · split
      · exact ⟨rfl, rfl⟩
      · exact ⟨rfl, rfl⟩
    · exact ⟨rfl, rfl⟩
  cases discovered with
  | none =>
    simp only [commitDocument]
    split <;> exact ⟨rfl, rfl⟩
  | some =>
    simp only [commitDocument]
    split
    · split
      · exact admits
      · exact admits
    · exact admits

theorem commitDocument_committed :
    (store.commitDocument key explicit admitted discovered).2.1 =
      (discovered.isSome || !explicit || admitted) := by
  cases discovered with
  | none => rfl
  | some =>
    simp only [commitDocument, Option.isSome_some, Bool.true_or]
    split
    · split
      · rfl
      · rfl
    · rfl

theorem commitDocument_returned :
    (store.commitDocument key explicit admitted discovered).2.2.isSome = discovered.isSome := by
  cases discovered with
  | none => rfl
  | some =>
    simp only [commitDocument, Option.isSome_some]
    split
    · split
      · rfl
      · exact AList.lookup_isSome.mpr (AList.mem_insert _ |>.mpr (.inl rfl))
    · exact AList.lookup_isSome.mpr (AList.mem_insert _ |>.mpr (.inl rfl))

end

end Store

end Ferretd.Documents

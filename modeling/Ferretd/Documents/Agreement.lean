import Ferretd.Documents.StaticLoader

/-!
# The three discovery paths

In a tree without failures the loader, the load of a subtree and the discovery of one
document find the same documents, exactly when the names on the way are UTF-8.
-/

namespace Ferretd.Documents

open Library List

variable {shared : Shared} {failed : GoError → Prop} {key : Key} {site : Site} {tree : Tree}
  {unlinked : Handle → Content} {Value : Type}

/-! ## Agreement -/

/-- The names that discovery meets are UTF-8: those of the directories it lists and of the
files it finds. -/
structure Tree.NamesValid (tree : Tree) : Prop where
  directories : ∀ dir, tree.listed dir = true → validPath dir = true
  files : ∀ key, tree.eligible key = true → validPath key = true

def Returns {Value : Type} (site : Site) (tree : Tree) (unlinked : Handle → Content)
    (shared : Shared) (code : Code Value) (ok : Value → Prop) : Prop :=
  ∃ value after, shared.evaluate site (tree.environment [] unlinked) code.run =
    some (.ok value, after) ∧ ok value

/-- The load of a subtree has the documents of the load at or below its key, and the
discovery of one document finds what the load has. -/
def DiscoveryAgrees (site : Site) (tree : Tree) (unlinked : Handle → Content)
    (watching : Bool) (fuel : Nat) (shared : Shared) : Prop :=
  Returns site tree unlinked shared (loadWorkspace site watching fuel) fun content =>
    (∀ key, tree.kind key = none ∨ tree.kind key = some .directory →
      Returns site tree unlinked shared (loadWorkspaceSubtree site watching fuel key)
        fun part => ∀ other, part.documents.lookup other =
          if workspacePathInSubtree other key then content.documents.lookup other else none) ∧
    ∀ key, key ≠ [] →
      Returns site tree unlinked shared (discoverWorkspaceDocument site watching false key)
        fun discovered => discovered.document = content.documents.lookup key

theorem Finds.returns {ok : Value → Prop} {code : Code Value} (calm : shared.watch.closed = false)
    (found : Finds site (tree.environment [] unlinked) tree False (fun _ => False) ok code) :
    Returns site tree unlinked shared code ok := by
  obtain ⟨result, after, evaluated, _, returned, failed⟩ := found.evaluate shared fun _ => calm
  cases result with
  | ok value => exact ⟨value, after, evaluated, returned value rfl⟩
  | error err => exact absurd (failed err rfl) not_false

theorem Returns.of_finds {ok found : Value → Prop} {code : Code Value}
    (returns : Returns site tree unlinked shared code ok)
    (finds : Finds site (tree.environment [] unlinked) tree True failed found code) :
    ∃ value, ok value ∧ found value := by
  obtain ⟨value, after, evaluated, holds⟩ := returns
  obtain ⟨result, last, same, _, returned, _⟩ :=
    finds.evaluate shared fun impossible => absurd trivial impossible
  rw [evaluated] at same
  cases same
  exact ⟨value, holds, returned value rfl⟩

theorem Tree.inspectedDocument_eq (site : Site) (unlinked : Handle → Content)
    (regular : tree.kind key = some .regular) :
    ∃ content, inspectedDocument site (tree.environment [] unlinked) key =
        newDocument site (fileOf site key) content ∧
      loadedDocument site (tree.environment [] unlinked) key =
        if validPath key then
          newDocument site (fileOf site key) content
        else
          newUnreadableDocument (fileOf site key) .read [.invalid] := by
  obtain ⟨info, located, isRegular⟩ := Tree.kind_some regular
  obtain ⟨node, present, rfl⟩ := Option.map_eq_some_iff.mp located
  cases node with
  | regular identity content =>
    refine ⟨content, ?_, ?_⟩
    · simp [inspectedDocument, Tree.environment, located, present, Node.info]
    cases valid : validPath key with
    | true => simp [loadedDocument, Tree.environment, present, valid]
    | false => simp [loadedDocument, Tree.environment, valid]
  | _ => cases isRegular

theorem discovery_agrees_iff {watching : Bool} {fuel : Nat}
    (within : tree.Within fuel) (open_ : shared.watch.closed = false) :
    DiscoveryAgrees site tree unlinked watching fuel shared ↔ tree.NamesValid := by
  have truthful : (tree.environment [] unlinked).Truthful tree :=
    Tree.environment_truthful rfl
  constructor
  · intro agrees
    have anyFault : ¬True → (tree.environment [] unlinked).Serves tree :=
      fun impossible => absurd trivial impossible
    obtain ⟨content, ⟨_, documents⟩, shows⟩ :=
      agrees.of_finds (finds_loadWorkspace truthful anyFault within (Nat.le_refl fuel))
    constructor
    · intro dir isListed
      obtain ⟨listing, read⟩ := shows.reads dir nil_prefix isListed
      by_contra invalid
      rw [Bool.not_eq_true] at invalid
      simp [Tree.environment, invalid] at read
    · intro key isEligible
      obtain ⟨dir, name, shape, _, regular, _⟩ := Tree.eligible_cases isEligible
      obtain ⟨discovered, same, found⟩ := (documents key (by rw [shape]; simp)).of_finds
        (finds_discoverWorkspaceDocument truthful anyFault key)
      have inRoot : workspacePathInSubtree key [] = true :=
        workspacePathInSubtree_iff.mpr nil_prefix
      have isFound : tree.finds false key = true := isEligible
      rw [same, shows.documents, loadedFrom, inRoot, isEligible, isFound] at found
      obtain ⟨bytes, inspected, loaded⟩ :=
        Tree.inspectedDocument_eq site unlinked regular
      simp only [foundDocument, Bool.and_self, if_true, Option.some.injEq] at found
      rw [inspected, loaded] at found
      by_contra invalid
      rw [if_neg invalid] at found
      cases congrArg Document.loaded found
  · intro valid
    have serves : ¬False → (tree.environment [] unlinked).Serves tree :=
      fun _ => Tree.environment_serves valid.directories
    refine Finds.returns open_ (Finds.mono (finds_loadWorkspace truthful serves within
      (Nat.le_refl fuel)) ?_ fun _ fault => fault)
    intro content shows
    refine ⟨?_, ?_⟩
    · intro key named
      have notSource : tree.eligible key = false := by
        by_contra isEligible
        rw [Bool.not_eq_false] at isEligible
        obtain ⟨_, _, _, _, regular, _⟩ := Tree.eligible_cases isEligible
        rw [regular] at named
        rcases named with nothing | dir
        · cases nothing
        · cases dir
      refine Finds.returns open_ (Finds.mono (finds_loadWorkspaceSubtree truthful serves within
        (Nat.le_refl fuel)) ?_ fun _ fault => fault)
      intro part partShows other
      have inRoot : workspacePathInSubtree other [] = true :=
        workspacePathInSubtree_iff.mpr nil_prefix
      rw [(partShows notSource).documents, shows.documents, loadedFrom, loadedFrom, inRoot]
      cases workspacePathInSubtree other key with
      | true | false => rfl
    · intro key _
      refine Finds.returns open_ (Finds.mono (finds_discoverWorkspaceDocument truthful serves
        key) ?_ fun _ fault => fault)
      intro discovered found
      have inRoot : workspacePathInSubtree key [] = true :=
        workspacePathInSubtree_iff.mpr nil_prefix
      rw [found, shows.documents, loadedFrom, inRoot]
      show foundDocument site _ (tree.eligible key) key = _
      cases isEligible : tree.eligible key with
      | false => rfl
      | true =>
        obtain ⟨_, _, _, _, regular, _⟩ := Tree.eligible_cases isEligible
        obtain ⟨bytes, inspected, loaded⟩ :=
          Tree.inspectedDocument_eq site unlinked regular
        rw [valid.files key isEligible, if_pos rfl] at loaded
        simp only [foundDocument, Bool.and_self, if_true]
        rw [inspected, loaded]

/-- A file whose name is the byte `0xFF` and the extension. -/
def latinName : Name :=
  ⟨Char.ofNat 0xFF :: ".fql".toList, by decide⟩

theorem Tree.namesValid_of_all (valid : tree.nodes.keys.all validPath = true) :
    tree.NamesValid := by
  rw [all_eq_true] at valid
  constructor
  · intro dir isListed
    exact valid dir (Tree.mem_of_kind (Tree.listed_directory isListed))
  · intro key isEligible
    obtain ⟨_, _, _, _, regular, _⟩ := Tree.eligible_cases isEligible
    exact valid key (Tree.mem_of_kind regular)

theorem discovery_agrees_plain :
    (oneFile plainName).Within 2 ∧ (oneFile plainName).NamesValid ∧
      (DiscoveryAgrees sampleSite (oneFile plainName) (fun _ => []) true 2 .initial ↔
        (oneFile plainName).NamesValid) := by
  have within : (oneFile plainName).Within 2 := by decide
  exact ⟨within, Tree.namesValid_of_all (by decide), discovery_agrees_iff within rfl⟩

/-- The loader does not read the file and the discovery of the document does. -/
theorem discovery_disagrees_latin :
    (oneFile latinName).Within 2 ∧
      ¬DiscoveryAgrees sampleSite (oneFile latinName) (fun _ => []) true 2 .initial := by
  refine ⟨by decide, ?_⟩
  rintro ⟨content, _, loaded, _, documents⟩
  obtain ⟨discovered, _, found, same⟩ := documents [latinName] (by decide)
  have unread : (Shared.initial.evaluate sampleSite ((oneFile latinName).environment [] fun _ => [])
      (loadWorkspace sampleSite true 2).run).map (fun result =>
        result.1.toOption.map fun content =>
          (content.documents.lookup [latinName]).map Document.loaded) =
        some (some (some false)) := by
    decide +kernel
  have read : (Shared.initial.evaluate sampleSite ((oneFile latinName).environment [] fun _ => [])
      (discoverWorkspaceDocument sampleSite true false [latinName]).run).map (fun result =>
        result.1.toOption.map fun discovered => discovered.document.map Document.loaded) =
        some (some (some true)) := by
    decide +kernel
  rw [loaded] at unread
  rw [found] at read
  simp only [Option.map_some, Except.toOption, Option.some.injEq] at unread read
  rw [same, unread] at read
  cases read

end Ferretd.Documents

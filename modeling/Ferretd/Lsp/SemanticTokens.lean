import Ferretd.Values

/-!
# Semantic tokens on the wire

A token is written relative to the one before it, in wrapping arithmetic.  A client adds the
differences up as natural numbers and reads types and modifiers through the legend.
-/

namespace Ferretd.Lsp

open List

inductive SemanticTokenKind where
  | unknown | namespace | function | variable | parameter | keyword | string | number
  | comment | operator
deriving DecidableEq

/-- `language.SemanticToken`; the modifiers are a set of bits. -/
structure SemanticToken where
  range : Range
  kind : SemanticTokenKind
  modifiers : UInt8

def semanticTokenTypeDefinitions : List (SemanticTokenKind × String) :=
  [(.namespace, "namespace"), (.function, "function"), (.variable, "variable"),
    (.parameter, "parameter"), (.keyword, "keyword"), (.string, "string"), (.number, "number"),
    (.comment, "comment"), (.operator, "operator")]

def semanticTokenModifierDefinitions : List (UInt8 × String) :=
  [(1, "declaration"), (2, "readonly")]

def semanticTokenLegend : List String × List String :=
  (semanticTokenTypeDefinitions.map Prod.snd, semanticTokenModifierDefinitions.map Prod.snd)

def semanticTokenType (kind : SemanticTokenKind) : Option UInt32 :=
  (semanticTokenTypeDefinitions.findIdx? (·.1 = kind)).map UInt32.ofNat

def semanticTokenModifierBits (modifiers : UInt8) : UInt32 :=
  semanticTokenModifierDefinitions.zipIdx.foldl (fun result (definition, index) =>
    if modifiers &&& definition.1 ≠ 0 then result ||| 1 <<< UInt32.ofNat index else result) 0

/-- The loop of `encodeSemanticTokens`. -/
def encodeFrom (previous : Position) : List SemanticToken → List UInt32
  | [] => []
  | value :: rest =>
    match semanticTokenType value.kind with
    | none => encodeFrom previous rest
    | some tokenType =>
      let start := value.range.start
      let deltaLine := start.line - previous.line
      let deltaStart :=
        if deltaLine = 0 then start.character - previous.character else start.character
      [deltaLine, deltaStart, value.range.stop.character - start.character, tokenType,
        semanticTokenModifierBits value.modifiers] ++ encodeFrom start rest

def encodeSemanticTokens (values : List SemanticToken) : List UInt32 :=
  encodeFrom ⟨0, 0⟩ values

/-- What a client shows for a token. -/
structure ShownToken where
  place : Nat × Nat
  length : Nat
  type : Option String
  modifiers : List (Option String)

/-- The place of a token, from the place of the one before. -/
def advance (place : Nat × Nat) (deltaLine deltaStart : UInt32) : Nat × Nat :=
  (place.1 + deltaLine.toNat,
    if deltaLine = 0 then place.2 + deltaStart.toNat else deltaStart.toNat)

/-- The protocol's reading of the data. -/
def readFrom (legend : List String × List String) (place : Nat × Nat) :
    List UInt32 → List ShownToken
  | deltaLine :: deltaStart :: length :: tokenType :: bits :: rest =>
    ⟨advance place deltaLine deltaStart, length.toNat, legend.1[tokenType.toNat]?,
      ((List.range legend.2.length).filter bits.toNat.testBit).map (legend.2[·]?)⟩ ::
        readFrom legend (advance place deltaLine deltaStart) rest
  | _ => []

/-- What the language service said, unless the kind has no type in the protocol. -/
def SemanticToken.shown (token : SemanticToken) : Option ShownToken :=
  (semanticTokenTypeDefinitions.find? (·.1 = token.kind)).map fun definition =>
    ⟨(token.range.start.line.toNat, token.range.start.character.toNat),
      token.range.stop.character.toNat - token.range.start.character.toNat, some definition.2,
      (semanticTokenModifierDefinitions.filter (token.modifiers &&& ·.1 ≠ 0)).map (some ·.2)⟩

def Before (first second : Position) : Prop :=
  first.line < second.line ∨ first.line = second.line ∧ first.character ≤ second.character

theorem advance_delta {first second : Position} (before : Before first second) :
    advance (first.line.toNat, first.character.toNat) (second.line - first.line)
      (if second.line - first.line = 0 then second.character - first.character
        else second.character) = (second.line.toNat, second.character.toNat) := by
  have sum {least value : UInt32} (below : least ≤ value) :
      least.toNat + (value - least).toNat = value.toNat := by
    rw [UInt32.toNat_sub_of_le _ _ below]
    exact Nat.add_sub_cancel' (UInt32.le_iff_toNat_le.mp below)
  unfold advance
  rcases before with less | ⟨same, starts⟩
  · have apart : second.line - first.line ≠ 0 := by grind
    rw [if_neg apart, if_neg apart, sum (UInt32.le_of_lt less)]
  · have none : second.line - first.line = 0 := by grind
    rw [if_pos none, if_pos none, sum starts, sum (same ▸ UInt32.le_refl _)]

theorem modifiers_read (modifiers : UInt8) :
    ((List.range semanticTokenLegend.2.length).filter
      (semanticTokenModifierBits modifiers).toNat.testBit).map (semanticTokenLegend.2[·]?) =
      (semanticTokenModifierDefinitions.filter (modifiers &&& ·.1 ≠ 0)).map (some ·.2) := by
  unfold semanticTokenModifierBits semanticTokenModifierDefinitions
  by_cases declaration : modifiers &&& 1 = 0 <;> by_cases readonly : modifiers &&& 2 = 0 <;>
    simp [-map_eq_singleton_iff, List.filter, declaration, readonly] <;> decide

theorem type_read (kind : SemanticTokenKind) :
    (semanticTokenType kind).map (fun tokenType => semanticTokenLegend.1[tokenType.toNat]?) =
      (semanticTokenTypeDefinitions.find? (·.1 = kind)).map (some ·.2) := by
  cases kind <;> decide

theorem read_encodeFrom (previous : Position) (values : List SemanticToken)
    (ordered : (previous :: values.map (·.range.start)).Pairwise Before)
    (forward : ∀ token ∈ values, token.range.start.character ≤ token.range.stop.character) :
    readFrom semanticTokenLegend (previous.line.toNat, previous.character.toNat)
      (encodeFrom previous values) = values.filterMap SemanticToken.shown := by
  induction values generalizing previous with
  | nil => rfl
  | cons token rest ih =>
    obtain ⟨first, later⟩ := forall_mem_cons.mp forward
    have read := type_read token.kind
    unfold encodeFrom
    cases known : semanticTokenType token.kind with
    | none =>
      rw [known, eq_comm, Option.map_none, Option.map_eq_none_iff] at read
      rw [filterMap_cons_none (by rw [SemanticToken.shown, read]; rfl)]
      exact ih previous (ordered.sublist (.cons_cons _ (.cons _ (.refl _)))) later
    | some tokenType =>
      rw [known, eq_comm, Option.map_some, Option.map_eq_some_iff] at read
      obtain ⟨definition, isDefined, named⟩ := read
      obtain ⟨before, ordered⟩ := pairwise_cons.mp ordered
      rw [filterMap_cons_some (by rw [SemanticToken.shown, isDefined]; rfl)]
      simp only [cons_append, nil_append, readFrom, modifiers_read, ← named,
        advance_delta (before _ mem_cons_self), UInt32.toNat_sub_of_le _ _ first]
      rw [ih _ ordered later]

/-- A client reads the tokens of a document as they were given. -/
theorem semanticTokens_read (values : List SemanticToken)
    (ordered : (values.map (·.range.start)).Pairwise Before)
    (forward : ∀ token ∈ values, token.range.start.character ≤ token.range.stop.character) :
    readFrom semanticTokenLegend (0, 0) (encodeSemanticTokens values) =
      values.filterMap SemanticToken.shown := by
  refine read_encodeFrom ⟨0, 0⟩ values (pairwise_cons.mpr ⟨?_, ordered⟩) forward
  intro pos _
  unfold Before
  grind

theorem semanticTokens_read_pair :
    let values : List SemanticToken := [⟨⟨⟨0, 4⟩, ⟨0, 7⟩⟩, .keyword, 0⟩,
      ⟨⟨⟨0, 8⟩, ⟨0, 9⟩⟩, .variable, 3⟩]
    readFrom semanticTokenLegend (0, 0) (encodeSemanticTokens values) =
      values.filterMap SemanticToken.shown :=
  semanticTokens_read _ (by simp [Before]) (by simp)

end Ferretd.Lsp

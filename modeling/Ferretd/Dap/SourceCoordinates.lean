import Ferretd.Library.Utf8
import Ferretd.Values

/-!
# Source coordinates

The translation between client positions (lines and UTF-16 columns from a negotiated
base) and native positions (lines and byte columns from one) over the text that was
compiled.  A position that is not a decoder boundary of an existing line is rejected in
both directions.
-/

namespace Ferretd.Dap

open Library.Utf8 List

inductive PathFormat where
  | path
  | uri

structure ClientOptions where
  pathFormat : PathFormat
  linesStartAt1 : Bool
  columnsStartAt1 : Bool

/-- `sourceColumnBoundary`. -/
structure ColumnBoundary where
  bytes : Nat
  units : Nat

/-- `sourceCoordinateLine`. -/
structure CoordinateLine where
  start : Nat
  stop : Nat
  boundaries : List ColumnBoundary

structure SourceCoordinates where
  text : List UInt8
  lines : List CoordinateLine
  lineBase : Int
  columnBase : Int

/-- `clientSourcePosition`. -/
structure ClientPosition where
  line : Int
  column : Option Int

/-- The boundaries after the first one of a line content; every round takes at least one
byte, so the length of the content is enough fuel. -/
def boundariesFrom : Nat → List UInt8 → ColumnBoundary → List ColumnBoundary
  | 0, _, _ => []
  | _ + 1, [], _ => []
  | fuel + 1, content, before =>
    let decoded := decodeRune content
    let after : ColumnBoundary :=
      ⟨before.bytes + decoded.2, before.units + utf16Length decoded.1⟩
    after :: boundariesFrom fuel (content.drop decoded.2) after

def newCoordinateLine (start : Nat) (content : List UInt8) : CoordinateLine where
  start := start
  stop := start + content.length
  boundaries := ⟨0, 0⟩ :: boundariesFrom content.length content ⟨0, 0⟩

/-- The content of a line that a line feed ends, without the carriage return before
it. -/
def trimReturn (line : List UInt8) : List UInt8 :=
  if line.getLast? = some 0x0D then line.dropLast else line

/-- The loop of `newSourceCoordinates`; `line` are the bytes seen since `start`. -/
def coordinateLines (start : Nat) (line : List UInt8) :
    List UInt8 → List CoordinateLine
  | [] => [newCoordinateLine start line]
  | byte :: rest =>
    if byte = 0x0A then
      newCoordinateLine start (trimReturn line) ::
        coordinateLines (start + line.length + 1) [] rest
    else
      coordinateLines start (line ++ [byte]) rest

def newSourceCoordinates (text : List UInt8) (client : ClientOptions) :
    SourceCoordinates where
  text := text
  lines := coordinateLines 0 [] text
  lineBase := if client.linesStartAt1 then 1 else 0
  columnBase := if client.columnsStartAt1 then 1 else 0

/-- `errInvalidSourcePosition` with the text it is wrapped in. -/
def invalidPosition (text : String) : GoError :=
  [.message "invalid source position", .message text]

namespace SourceCoordinates

variable (coordinates : SourceCoordinates)

def fromClient (line : Int) (column : Option Int) :
    Except GoError SourcePosition :=
  if line < coordinates.lineBase then
    .error (invalidPosition "line is outside the compiled source")
  else
    match coordinates.lines[(line - coordinates.lineBase).toNat]? with
    | none => .error (invalidPosition "line is outside the compiled source")
    | some found =>
      let native := line - coordinates.lineBase + 1
      match column with
      | none => .ok ⟨native, 0⟩
      | some column =>
        if column < coordinates.columnBase then
          .error (invalidPosition "column precedes the line")
        else
          let units := (column - coordinates.columnBase).toNat
          -- `sort.Search` finds the first boundary that is not before the column
          match found.boundaries.find? (fun boundary => units ≤ boundary.units) with
          | none => .error (invalidPosition "column is not a UTF-16 boundary in the compiled line")
          | some boundary =>
            if boundary.units = units then
              .ok ⟨native, boundary.bytes + 1⟩
            else
              .error (invalidPosition "column is not a UTF-16 boundary in the compiled line")

def toClient (pos : SourcePosition) :
    Except GoError ClientPosition :=
  if pos.line < 1 then
    .error (invalidPosition "native line is outside the compiled source")
  else
    match coordinates.lines[(pos.line - 1).toNat]? with
    | none => .error (invalidPosition "native line is outside the compiled source")
    | some found =>
      if pos.column < 0 then
        .error (invalidPosition "native column precedes the line")
      else
        let line := pos.line - 1 + coordinates.lineBase
        -- a requested breakpoint without a column has column zero
        if pos.column = 0 then
          .ok ⟨line, none⟩
        else
          let bytes := (pos.column - 1).toNat
          match found.boundaries.find? (fun boundary => bytes ≤ boundary.bytes) with
          | none => .error (invalidPosition
              "native column is not a byte boundary in the compiled line")
          | some boundary =>
            if boundary.bytes = bytes then
              .ok ⟨line, some (boundary.units + coordinates.columnBase)⟩
            else
              .error (invalidPosition "native column is not a byte boundary in the compiled line")

end SourceCoordinates

example :
    (newSourceCoordinates [0x41, 0xC3, 0xA9, 0x0D, 0x0A, 0x42] ⟨.path, true, true⟩).fromClient
      1 (some 3) = .ok ⟨1, 4⟩ := by decide

variable {fuel wanted : Nat} {before boundary : ColumnBoundary} {content : List UInt8}

theorem mem_boundariesFrom (enough : content.length ≤ fuel) :
    boundary ∈ before :: boundariesFrom fuel content before ↔ ∃ bytes units,
      Decodes content bytes units ∧ boundary = ⟨before.bytes + bytes, before.units + units⟩ := by
  induction fuel generalizing content before with
  | zero =>
    obtain rfl := eq_nil_of_length_eq_zero (Nat.le_zero.mp enough)
    simp [boundariesFrom, decodes_nil]
  | succ fuel ih =>
    by_cases empty : content = []
    · simp [empty, boundariesFrom, decodes_nil]
    · have size := decodeRune_size empty
      rw [boundariesFrom, mem_cons, ih (by rw [length_drop]; omega)]
      · constructor
        · rintro (rfl | ⟨bytes, units, decodes, rfl⟩)
          · exact ⟨0, 0, .stop _, rfl⟩
          · exact ⟨_, _, .next empty decodes, by simp only [Nat.add_assoc]⟩
        · rintro ⟨_, _, decodes, rfl⟩
          cases decodes with
          | stop => exact Or.inl rfl
          | next _ rest => exact Or.inr ⟨_, _, rest, by simp only [Nat.add_assoc]⟩
      · exact empty

theorem boundaries_pairwise (enough : content.length ≤ fuel) :
    (before :: boundariesFrom fuel content before).Pairwise fun first second =>
      first.bytes < second.bytes ∧ first.units < second.units := by
  induction fuel generalizing content before with
  | zero => exact pairwise_singleton _ _
  | succ fuel ih =>
    by_cases empty : content = []
    · subst empty
      exact pairwise_singleton _ _
    · have size := decodeRune_size empty
      have shorter : (content.drop (decodeRune content).2).length ≤ fuel := by
        rw [length_drop]
        omega
      rw [boundariesFrom]
      · refine pairwise_cons.mpr ⟨fun boundary member => ?_, ih shorter⟩
        obtain ⟨bytes, units, -, rfl⟩ := (mem_boundariesFrom shorter).mp member
        have wide := utf16Length_pos (decodeRune content).1
        exact ⟨by dsimp only; omega, by dsimp only; omega⟩
      · exact empty

theorem find?_eq_some {boundaries : List ColumnBoundary} (key : ColumnBoundary → Nat)
    (sorted : boundaries.Pairwise fun first second => key first < key second) :
    boundaries.find? (fun boundary => wanted ≤ key boundary) = some boundary ∧
      key boundary = wanted ↔ boundary ∈ boundaries ∧ key boundary = wanted := by
  constructor
  · rintro ⟨found, same⟩
    exact ⟨mem_of_find?_eq_some found, same⟩
  · rintro ⟨member, rfl⟩
    refine ⟨?_, rfl⟩
    obtain ⟨first, last, rfl⟩ := append_of_mem member
    have before := (pairwise_append.mp sorted).2.2
    rw [find?_append, find?_eq_none.mpr]
    · simp
    · intro other earlier
      have less := before other earlier boundary mem_cons_self
      simpa using less

/-- Line `index` of a text, its offset and its content: what stands before a line feed,
without one carriage return at its end, or behind the last line feed. -/
inductive LineOf : List UInt8 → Nat → Nat → List UInt8 → Prop
  | last {line : List UInt8} (unbroken : 0x0A ∉ line) : LineOf line 0 0 line
  | first {line content rest : List UInt8} (unbroken : 0x0A ∉ line)
      (ended : line = content ++ [0x0D] ∨ line = content ∧ content.getLast? ≠ some 0x0D) :
      LineOf (line ++ 0x0A :: rest) 0 0 content
  | later {line content rest : List UInt8} {index start : Nat} (unbroken : 0x0A ∉ line)
      (below : LineOf rest index start content) :
      LineOf (line ++ 0x0A :: rest) (index + 1) (line.length + 1 + start) content

section Lines

variable {line content rest text : List UInt8} {index start offset : Nat} {found : CoordinateLine}

theorem trimReturn_eq_iff : trimReturn line = content ↔
    line = content ++ [0x0D] ∨ line = content ∧ content.getLast? ≠ some 0x0D := by
  unfold trimReturn
  split_ifs with returns
  · obtain ⟨front, rfl⟩ := getLast?_eq_some_iff.mp returns
    simp only [dropLast_concat, append_cancel_right_eq]
    constructor
    · exact fun same => .inl same
    · rintro (same | ⟨rfl, other⟩)
      · exact same
      · exact absurd returns other
  · constructor
    · rintro rfl
      exact .inr ⟨rfl, returns⟩
    · rintro (rfl | ⟨rfl, -⟩)
      · simp at returns
      · rfl

theorem LineOf.of_unbroken (unbroken : 0x0A ∉ line) (isLine : LineOf line index start content) :
    index = 0 ∧ start = 0 ∧ content = line := by
  cases isLine with
  | last => exact ⟨rfl, rfl, rfl⟩
  | first | later => simp at unbroken

/-- The first line feed of a text divides it in one way only. -/
theorem feed_split {other rest' : List UInt8} (unbroken : 0x0A ∉ line)
    (unbroken' : 0x0A ∉ other) (same : line ++ 0x0A :: rest = other ++ 0x0A :: rest') :
    line = other ∧ rest = rest' := by
  rcases append_eq_append_iff.mp same with ⟨more, rfl, tail⟩ | ⟨more, rfl, tail⟩
  all_goals
    obtain - | ⟨byte, more⟩ := more
    · simp_all
    · simp_all

theorem LineOf.of_feed (unbroken : 0x0A ∉ line)
    (isLine : LineOf (line ++ 0x0A :: rest) index start content) :
    index = 0 ∧ start = 0 ∧ trimReturn line = content ∨ ∃ below offset, index = below + 1 ∧
      start = line.length + 1 + offset ∧ LineOf rest below offset content := by
  generalize same : line ++ 0x0A :: rest = text at isLine
  cases isLine with
  | last unbroken' => simp [← same] at unbroken'
  | first unbroken' ended =>
    obtain ⟨rfl, rfl⟩ := feed_split unbroken unbroken' same
    exact .inl ⟨rfl, rfl, trimReturn_eq_iff.mpr ended⟩
  | later unbroken' below =>
    obtain ⟨rfl, rfl⟩ := feed_split unbroken unbroken' same
    exact .inr ⟨_, _, rfl, rfl, below⟩

/-- The loop makes one entry for each line of the text. -/
theorem coordinateLines_iff (unbroken : 0x0A ∉ line) :
    (coordinateLines start line rest)[index]? = some found ↔ ∃ offset content,
      LineOf (line ++ rest) index offset content ∧
        found = newCoordinateLine (start + offset) content := by
  induction rest generalizing start line index with
  | nil =>
    rw [coordinateLines, append_nil]
    constructor
    · intro located
      obtain ⟨found', rfl⟩ := List.getElem?_eq_some_iff.mp located
      obtain rfl : index = 0 := Nat.lt_one_iff.mp found'
      exact ⟨0, line, .last unbroken, rfl⟩
    · rintro ⟨offset, content, isLine, rfl⟩
      obtain ⟨rfl, rfl, rfl⟩ := isLine.of_unbroken unbroken
      rfl
  | cons byte rest ih =>
    unfold coordinateLines
    split_ifs with feed
    · subst feed
      constructor
      · cases index with
        | zero =>
          intro located
          cases located
          exact ⟨0, trimReturn line, .first unbroken (trimReturn_eq_iff.mp rfl), rfl⟩
        | succ index =>
          intro located
          obtain ⟨offset, content, isLine, rfl⟩ := (ih not_mem_nil).mp located
          exact ⟨_, content, .later unbroken isLine, by simp only [Nat.add_assoc]⟩
      · rintro ⟨offset, content, isLine, rfl⟩
        rcases isLine.of_feed unbroken with ⟨rfl, rfl, rfl⟩ | ⟨below, offset, rfl, rfl, isBelow⟩
        · rfl
        · refine (ih not_mem_nil).mpr ⟨offset, content, isBelow, ?_⟩
          simp only [Nat.add_assoc]
    · have longer : 0x0A ∉ line ++ [byte] := by
        simp [unbroken, Ne.symm feed]
      rw [ih longer, append_assoc, singleton_append]

/-- Every line of a text is decoded as it is within the whole text. -/
theorem LineOf.decodes_iff (isLine : LineOf text index start content) :
    ∃ width, ∀ bytes units, Decodes content bytes units ↔
      bytes ≤ content.length ∧ Decodes text (start + bytes) (width + units) := by
  induction isLine with
  | last =>
    refine ⟨0, fun bytes units => ?_⟩
    refine (decodes_iff_append (by simp : ∀ byte ∈ ([] : List UInt8).head?, byte < 0x80)).trans ?_
    simp
  | first _ ended =>
    refine ⟨0, fun bytes units => ?_⟩
    rw [Nat.zero_add, Nat.zero_add]
    rcases ended with rfl | ⟨rfl, -⟩
    · rw [append_assoc]
      exact decodes_iff_append (by simp)
    · exact decodes_iff_append (by simp)
  | @later line _ rest _ _ _ _ ih =>
    obtain ⟨front, whole⟩ := exists_decodes_length line
    obtain ⟨width, inside⟩ := ih
    refine ⟨front + (1 + width), fun bytes units => ?_⟩
    have feed (bytes units : Nat) :
        Decodes (0x0A :: rest) (1 + bytes) (1 + units) ↔ Decodes rest bytes units :=
      decodes_next_iff (cons_ne_nil 0x0A rest)
    rw [inside, ← feed, ← decodes_append_iff (by simp) whole]
    simp only [Nat.add_assoc]

theorem mem_newCoordinateLine (boundary : ColumnBoundary) :
    boundary ∈ (newCoordinateLine start content).boundaries ↔
      Decodes content boundary.bytes boundary.units := by
  refine (mem_boundariesFrom (Nat.le_refl _)).trans ?_
  constructor
  · rintro ⟨bytes, units, decodes, rfl⟩
    simpa using decodes
  · intro decodes
    exact ⟨_, _, decodes, by simp⟩

theorem newCoordinateLine_pairwise (start : Nat) (content : List UInt8) :
    (newCoordinateLine start content).boundaries.Pairwise fun first second =>
      first.bytes < second.bytes ∧ first.units < second.units :=
  boundaries_pairwise (Nat.le_refl content.length)

theorem newSourceCoordinates_lines_iff (options : ClientOptions) :
    (newSourceCoordinates text options).lines[index]? = some found ↔ ∃ start content,
      LineOf text index start content ∧ found = newCoordinateLine start content := by
  refine (coordinateLines_iff not_mem_nil).trans ?_
  simp

end Lines

/-- A client position and a native one are the same place of the text: a whole line, or the
end of some first code points of a line. -/
def Corresponds (text : List UInt8) (lineBase columnBase : Int) (client : ClientPosition)
    (native : SourcePosition) : Prop :=
  ∃ (index start : Nat) (content : List UInt8), LineOf text index start content ∧
    client.line = index + lineBase ∧ native.line = index + 1 ∧
    (client.column = none ∧ native.column = 0 ∨ ∃ bytes units : Nat,
      Decodes content bytes units ∧ client.column = some (units + columnBase) ∧
      native.column = bytes + 1)

namespace SourceCoordinates

variable (text : List UInt8) (options : ClientOptions) (client : ClientPosition)
  (native : SourcePosition)

theorem fromClient_iff :
    (newSourceCoordinates text options).fromClient client.line client.column = .ok native ↔
      Corresponds text (newSourceCoordinates text options).lineBase
        (newSourceCoordinates text options).columnBase client native := by
  obtain ⟨line, column⟩ := client
  dsimp only
  constructor
  · intro accepted
    unfold fromClient at accepted
    split at accepted
    · cases accepted
    split at accepted
    · cases accepted
    next found located =>
    obtain ⟨start, content, isLine, rfl⟩ := (newSourceCoordinates_lines_iff options).mp located
    refine ⟨_, start, content, isLine, ?_⟩
    dsimp only at accepted
    split at accepted
    · cases accepted
      exact ⟨by dsimp only; omega, by dsimp only; omega, Or.inl ⟨rfl, rfl⟩⟩
    split at accepted
    · cases accepted
    split at accepted
    · cases accepted
    next boundary isFirst =>
    split_ifs at accepted with exactly
    cases accepted
    refine ⟨by dsimp only; omega, by dsimp only; omega, Or.inr ⟨_, _,
      (mem_newCoordinateLine boundary).mp (mem_of_find?_eq_some isFirst), ?_, rfl⟩⟩
    exact congrArg some (by omega)
  · rintro ⟨index, start, content, isLine, atLine, nativeLine, columns⟩
    have located := (newSourceCoordinates_lines_iff options).mpr ⟨start, content, isLine, rfl⟩
    have sorted := newCoordinateLine_pairwise start content
    obtain ⟨_, _⟩ := native
    dsimp only at atLine nativeLine columns
    unfold fromClient
    rw [if_neg (by omega), show (line - _).toNat = index by omega, located,
      show line - _ = (index : Int) by omega, ← nativeLine]
    rcases columns with ⟨rfl, rfl⟩ | ⟨bytes, units, decodes, rfl, rfl⟩
    · rfl
    · have first := (find?_eq_some ColumnBoundary.units (sorted.imp And.right)).mpr
        ⟨(mem_newCoordinateLine ⟨bytes, units⟩).mpr decodes, rfl⟩
      dsimp only at first ⊢
      rw [if_neg (by omega), Int.add_sub_cancel, Int.toNat_natCast, first.1]
      exact if_pos rfl

theorem toClient_iff : (newSourceCoordinates text options).toClient native = .ok client ↔
    Corresponds text (newSourceCoordinates text options).lineBase
        (newSourceCoordinates text options).columnBase client native := by
  obtain ⟨line, column⟩ := client
  constructor
  · intro accepted
    unfold toClient at accepted
    split at accepted
    · cases accepted
    split at accepted
    · cases accepted
    next found located =>
    obtain ⟨start, content, isLine, rfl⟩ := (newSourceCoordinates_lines_iff options).mp located
    refine ⟨_, start, content, isLine, ?_⟩
    dsimp only at accepted
    split at accepted
    · cases accepted
    split_ifs at accepted with whole
    · cases accepted
      exact ⟨by dsimp only; omega, by omega, Or.inl ⟨rfl, whole⟩⟩
    split at accepted
    · cases accepted
    next boundary isFirst =>
    split_ifs at accepted with exactly
    cases accepted
    exact ⟨by dsimp only; omega, by omega, Or.inr ⟨_, _,
      (mem_newCoordinateLine boundary).mp (mem_of_find?_eq_some isFirst), rfl, by omega⟩⟩
  · rintro ⟨index, start, content, isLine, rfl, nativeLine, columns⟩
    have located := (newSourceCoordinates_lines_iff options).mpr ⟨start, content, isLine, rfl⟩
    have sorted := newCoordinateLine_pairwise start content
    obtain ⟨_, _⟩ := native
    obtain rfl := nativeLine
    unfold toClient
    dsimp only at columns ⊢
    rw [if_neg (by omega), Int.add_sub_cancel, Int.toNat_natCast, located]
    rcases columns with ⟨rfl, rfl⟩ | ⟨bytes, units, decodes, rfl, rfl⟩
    · rfl
    · have first := (find?_eq_some ColumnBoundary.bytes (sorted.imp And.left)).mpr
        ⟨(mem_newCoordinateLine ⟨bytes, units⟩).mpr decodes, rfl⟩
      dsimp only at first ⊢
      rw [if_neg (by omega), if_neg (by omega), Int.add_sub_cancel, Int.toNat_natCast, first.1]
      exact if_pos rfl

/-- Both translations accept exactly the positions that correspond, so each undoes the
other; and the boundaries of a line are those that decoding the whole text has in it. -/
theorem coordinates_correspond :
    ((newSourceCoordinates text options).fromClient client.line client.column = .ok native ↔
      Corresponds text (if options.linesStartAt1 then 1 else 0)
        (if options.columnsStartAt1 then 1 else 0) client native) ∧
    ((newSourceCoordinates text options).toClient native = .ok client ↔
      Corresponds text (if options.linesStartAt1 then 1 else 0)
        (if options.columnsStartAt1 then 1 else 0) client native) ∧
    ((newSourceCoordinates text options).fromClient client.line client.column = .ok native ↔
      (newSourceCoordinates text options).toClient native = .ok client) ∧
    ∀ index line, (newSourceCoordinates text options).lines[index]? = some line →
      ∃ content width, LineOf text index line.start content ∧
        ∀ boundary, boundary ∈ line.boundaries ↔ boundary.bytes ≤ content.length ∧
          Decodes text (line.start + boundary.bytes) (width + boundary.units) := by
  refine ⟨fromClient_iff text options client native, toClient_iff text options client native,
    (fromClient_iff text options client native).trans
      (toClient_iff text options client native).symm, ?_⟩
  intro index line located
  obtain ⟨start, content, isLine, rfl⟩ := (newSourceCoordinates_lines_iff options).mp located
  obtain ⟨width, inside⟩ := isLine.decodes_iff
  exact ⟨content, width, isLine,
    fun boundary => (mem_newCoordinateLine boundary).trans (inside _ _)⟩

end SourceCoordinates

end Ferretd.Dap

/-!
# Decoding UTF-8 with replacement

A decoder reads one code point from the front of a byte string and says how many bytes
it took.  Where the bytes are not the shortest encoding of a code point, it takes one
byte and answers with the replacement character, so that decoding a whole string never
fails.
-/

namespace Library.Utf8

open List

/-- The code point that stands for malformed bytes. -/
def runeError : Nat := 0xFFFD

/-- The bytes a first byte asks for: how many in all, and the range of the second. -/
structure Lead where
  size : Nat
  low : UInt8
  high : UInt8

variable (byte : UInt8)

/-- The classes of first bytes; `none` for a byte that starts no code point. -/
def lead : Option Lead :=
  if byte < 0x80 then some ⟨1, 0x80, 0xBF⟩
  else if byte < 0xC2 then none
  else if byte < 0xE0 then some ⟨2, 0x80, 0xBF⟩
  else if byte = 0xE0 then some ⟨3, 0xA0, 0xBF⟩
  else if byte = 0xED then some ⟨3, 0x80, 0x9F⟩
  else if byte < 0xF0 then some ⟨3, 0x80, 0xBF⟩
  else if byte = 0xF0 then some ⟨4, 0x90, 0xBF⟩
  else if byte < 0xF4 then some ⟨4, 0x80, 0xBF⟩
  else if byte = 0xF4 then some ⟨4, 0x80, 0x8F⟩
  else none

def isTail : Bool :=
  decide (0x80 ≤ byte ∧ byte ≤ 0xBF)

/-- The six payload bits of a byte that follows another. -/
def tailBits : Nat :=
  byte.toNat % 64

/-- The first code point and the number of bytes it takes; no byte is taken from the
empty string. -/
def decodeRune : List UInt8 → Nat × Nat
  | [] => (runeError, 0)
  | first :: rest =>
    match lead first with
    | none => (runeError, 1)
    | some class_ =>
      match class_.size, rest with
      | 1, _ => (first.toNat, 1)
      | 2, second :: _ =>
        if class_.low ≤ second ∧ second ≤ class_.high then
          (first.toNat % 32 * 64 + tailBits second, 2)
        else
          (runeError, 1)
      | 3, second :: third :: _ =>
        if (class_.low ≤ second ∧ second ≤ class_.high) ∧ isTail third then
          (first.toNat % 16 * 4096 + tailBits second * 64 + tailBits third, 3)
        else
          (runeError, 1)
      | 4, second :: third :: fourth :: _ =>
        if (class_.low ≤ second ∧ second ≤ class_.high) ∧ isTail third ∧
            isTail fourth then
          (first.toNat % 8 * 262144 + tailBits second * 4096 +
            tailBits third * 64 + tailBits fourth, 4)
        else
          (runeError, 1)
      | _, _ => (runeError, 1)

/-- The number of UTF-16 code units of a decoded code point. -/
def utf16Length (rune : Nat) : Nat :=
  if rune < 0x10000 then 1 else 2

example : decodeRune [0xF0, 0x9F, 0x98, 0x80, 0x41] = (0x1F600, 4) := by decide

example : decodeRune [0xE2, 0x82] = (runeError, 1) := by decide

variable {content rest text : List UInt8} {bytes units width : Nat}

theorem decodeRune_size (nonempty : text ≠ []) : 1 ≤ (decodeRune text).2 := by
  fun_cases decodeRune text <;> simp_all

theorem decodeRune_size_le (nonempty : text ≠ []) : (decodeRune text).2 ≤ text.length := by
  fun_cases decodeRune text <;> simp_all

theorem low_of_lead {first : UInt8} {class_ : Lead} (known : lead first = some class_) :
    0x80 ≤ class_.low := by
  unfold lead at known
  repeat' split at known
  all_goals cases known
  all_goals decide

/-- A byte below `0x80` is no part of the code point before it. -/
theorem decodeRune_append (nonempty : content ≠ []) (ascii : ∀ byte ∈ rest.head?, byte < 0x80) :
    decodeRune (content ++ rest) = decodeRune content := by
  obtain - | ⟨byte, rest⟩ := rest
  · rw [append_nil]
  have small : ¬ 0x80 ≤ byte := UInt8.not_le.mpr (ascii byte rfl)
  obtain - | ⟨first, tail⟩ := content
  · exact absurd rfl nonempty
  cases known : lead first with
  | none => simp only [decodeRune, known, cons_append]
  | some class_ =>
    have notSecond : ¬ class_.low ≤ byte :=
      fun above => small (UInt8.le_trans (low_of_lead known) above)
    obtain - | ⟨second, - | ⟨third, - | ⟨fourth, tail⟩⟩⟩ := tail
    all_goals simp only [decodeRune, known, cons_append, nil_append, isTail]
    all_goals grind

theorem utf16Length_pos (rune : Nat) : 1 ≤ utf16Length rune := by
  unfold utf16Length
  split <;> omega

/-- The decoder takes some first code points with so many bytes and code units. -/
inductive Decodes : List UInt8 → Nat → Nat → Prop
  | stop (text : List UInt8) : Decodes text 0 0
  | next {text : List UInt8} {bytes units : Nat} (nonempty : text ≠ [])
      (rest : Decodes (text.drop (decodeRune text).2) bytes units) :
      Decodes text ((decodeRune text).2 + bytes) (utf16Length (decodeRune text).1 + units)

theorem decodes_nil : Decodes [] bytes units ↔ bytes = 0 ∧ units = 0 := by
  constructor
  · intro decodes
    cases decodes with
    | stop => exact ⟨rfl, rfl⟩
    | next nonempty => exact absurd rfl nonempty
  · rintro ⟨rfl, rfl⟩
    exact .stop []

theorem decodes_next_iff (nonempty : text ≠ []) :
    Decodes text ((decodeRune text).2 + bytes) (utf16Length (decodeRune text).1 + units) ↔
      Decodes (text.drop (decodeRune text).2) bytes units := by
  have size := decodeRune_size nonempty
  refine ⟨fun decodes => ?_, .next nonempty⟩
  generalize same : (decodeRune text).2 + bytes = total,
    same' : utf16Length (decodeRune text).1 + units = total' at decodes
  cases decodes with
  | stop => omega
  | next _ rest =>
    rwa [Nat.add_left_cancel same, Nat.add_left_cancel same']

theorem exists_decodes_length (content : List UInt8) :
    ∃ width, Decodes content content.length width := by
  induction known : content.length using Nat.strongRecOn generalizing content with
  | ind length ih =>
    by_cases empty : content = []
    · subst empty known
      exact ⟨0, .stop []⟩
    · have size := decodeRune_size empty
      have fits := decodeRune_size_le empty
      obtain ⟨width, decodes⟩ := ih _ (by omega) (content.drop (decodeRune content).2) (length_drop)
      have whole := Decodes.next empty decodes
      rw [Nat.add_sub_cancel' fits, known] at whole
      exact ⟨_, whole⟩

section

variable (ascii : ∀ byte ∈ rest.head?, byte < 0x80)
include ascii

theorem drop_rune_append (nonempty : content ≠ []) :
    (content ++ rest).drop (decodeRune (content ++ rest)).2 =
      content.drop (decodeRune content).2 ++ rest := by
  rw [decodeRune_append nonempty ascii, drop_append_of_le_length (decodeRune_size_le nonempty)]

/-- What the decoder reads in a text up to a byte below `0x80`. -/
theorem decodes_iff_append :
    Decodes content bytes units ↔
      bytes ≤ content.length ∧ Decodes (content ++ rest) bytes units := by
  constructor
  · intro decodes
    induction decodes with
    | stop => exact ⟨Nat.zero_le _, .stop _⟩
    | next nonempty _ ih =>
      have fits := decodeRune_size_le nonempty
      rw [length_drop] at ih
      refine ⟨by omega, ?_⟩
      rw [← decodeRune_append nonempty ascii]
      refine .next (append_ne_nil_of_left_ne_nil nonempty _) ?_
      rw [drop_rune_append ascii nonempty]
      exact ih.2
  · rintro ⟨fits, decodes⟩
    generalize same : content ++ rest = text at decodes
    induction decodes generalizing content with
    | stop => exact .stop _
    | next notNil _ ih =>
      subst same
      have size := decodeRune_size notNil
      have nonempty : content ≠ [] := by
        rintro rfl
        rw [length_nil] at fits
        omega
      rw [decodeRune_append nonempty ascii] at fits ⊢
      refine .next nonempty (ih ?_ (drop_rune_append ascii nonempty).symm)
      rw [length_drop]
      omega

/-- Decoding goes on behind such a text as it would at the start. -/
theorem decodes_append_iff (whole : Decodes content content.length width) :
    Decodes (content ++ rest) (content.length + bytes) (width + units) ↔
      Decodes rest bytes units := by
  generalize same : content.length = length at whole
  induction whole with
  | stop text =>
    rw [eq_nil_of_length_eq_zero same]
    simp
  | next nonempty _ ih =>
    rw [Nat.add_assoc, Nat.add_assoc, ← decodeRune_append nonempty ascii,
      decodes_next_iff (append_ne_nil_of_left_ne_nil nonempty rest),
      drop_rune_append ascii nonempty]
    refine ih ?_
    rw [length_drop]
    omega
end

end Library.Utf8

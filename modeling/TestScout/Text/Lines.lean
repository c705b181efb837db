/-!
# Lines of a text

Two views of lines: the list of lines for reading a header, and the offsets at which lines start
for locating a position. A final line break ends the last line and starts no further one. A line is
asked for by its number, and one that the text does not have is refused.
-/

namespace TestScout

/-! ## 1. The list of lines -/

/-- The lines of a text without their line breaks; a carriage return before a line break belongs to
    the break. -/
def lines (text : List Char) : List (List Char) :=
  go text []
where
  /-- Reads on with the characters of the current line, in reverse. -/
  go : List Char → List Char → List (List Char)
    | [], [] => []
    | [], line => [line.reverse]
    | '\n' :: rest, line => (dropReturn line).reverse :: go rest []
    | c :: rest, line => go rest (c :: line)
  /-- A reversed line without the carriage return at its end. -/
  dropReturn : List Char → List Char
    | '\r' :: line => line
    | line => line

/-! ## 2. The offsets of line starts -/

/-- The byte offsets at which the lines of a text start, ascending. -/
structure LineIndex where
  starts : List Nat
deriving Repr, DecidableEq

namespace LineIndex

/-- The offsets behind the line breaks of `bytes` that are not its last byte, `offset` being the
    offset of its first byte. -/
def startsFrom (offset : Nat) : List UInt8 → List Nat
  | [] => []
  | [_] => []
  | byte :: rest@(_ :: _) =>
    if byte = 10 then (offset + 1) :: startsFrom (offset + 1) rest
    else startsFrom (offset + 1) rest

/-- The index of a text given by its bytes. -/
def ofBytes (bytes : List UInt8) : LineIndex :=
  ⟨0 :: startsFrom 0 bytes⟩

/-- How many lines the text has; an empty text has one. -/
def lineCount (index : LineIndex) : Nat :=
  index.starts.length

/-- The offset at which the line with this number starts, lines being numbered from one. -/
def startOfLine (index : LineIndex) : Nat → Option Nat
  | 0 => none
  | line + 1 => index.starts[line]?

@[simp] theorem startOfLine_zero (index : LineIndex) : index.startOfLine 0 = none := rfl

/-- **A line has a start exactly when its number is between one and the line count.** -/
theorem startOfLine_isSome_iff {index : LineIndex} {line : Nat} :
    (index.startOfLine line).isSome ↔ 1 ≤ line ∧ line ≤ index.lineCount := by
  cases line with
  | zero => simp
  | succ n =>
    simp only [startOfLine, lineCount, isSome_getElem?]
    omega

end LineIndex

/-! ## 3. Asking for a line -/

/-- Why a line has no place in a text. -/
inductive LineError where
  /-- The text does not have the line. -/
  | outside (line count : Nat)
  /-- The text has the line, but no start of it is known. -/
  | noStart (line : Nat)
deriving DecidableEq, Repr

/-- The wording of an error. -/
def LineError.message : LineError → String
  | .outside line count =>
    "invalid line number " ++ toString line ++ " (should be between 1 and " ++ toString count ++ ")"
  | .noStart line => "invalid pos for line: " ++ toString line

namespace LineIndex

/-- The offset at which the line with this number starts; first of all the number is checked. -/
def locate (index : LineIndex) (line : Nat) : Except LineError Nat :=
  if line < 1 ∨ index.lineCount < line then .error (.outside line index.lineCount)
  else
    match index.startOfLine line with
    | some place => .ok place
    | none => .error (.noStart line)

theorem locate_of_startOfLine {index : LineIndex} {line place : Nat}
    (h : index.startOfLine line = some place) : index.locate line = .ok place := by
  have hline : 1 ≤ line ∧ line ≤ index.lineCount :=
    startOfLine_isSome_iff.mp (by rw [h, Option.isSome_some])
  rw [locate, if_neg (by omega), h]

theorem locate_of_outside {index : LineIndex} {line : Nat}
    (h : line = 0 ∨ index.lineCount < line) :
    index.locate line = .error (.outside line index.lineCount) := by
  rw [locate, if_pos (by omega)]

/-- **A line within the text has a start**, so a number out of range is the only error. -/
theorem locate_cases (index : LineIndex) (line : Nat) :
    ((line = 0 ∨ index.lineCount < line) ∧
        index.locate line = .error (.outside line index.lineCount)) ∨
      ((1 ≤ line ∧ line ≤ index.lineCount) ∧
        ∃ place, index.startOfLine line = some place ∧ index.locate line = .ok place) := by
  by_cases hline : 1 ≤ line ∧ line ≤ index.lineCount
  · obtain ⟨place, hplace⟩ := Option.isSome_iff_exists.mp (startOfLine_isSome_iff.mpr hline)
    exact Or.inr ⟨hline, place, hplace, locate_of_startOfLine hplace⟩
  · have houtside : line = 0 ∨ index.lineCount < line := by omega
    exact Or.inl ⟨houtside, locate_of_outside houtside⟩

end LineIndex

end TestScout

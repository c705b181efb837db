/-!
# Blank characters

White space in the sense of the Unicode property White_Space: twenty-five characters, the
byte-order mark not among them. Trimming removes it at the ends of a text, and the words of a text
are the pieces between it.
-/

namespace TestScout

/-! ## 1. The class -/

/-- A white-space character. -/
def isBlank (c : Char) : Bool :=
  let n := c.toNat
  (0x9 ≤ n && n ≤ 0xD) || n == 0x20 || n == 0x85 || n == 0xA0 || n == 0x1680 ||
    (0x2000 ≤ n && n ≤ 0x200A) || n == 0x2028 || n == 0x2029 || n == 0x202F || n == 0x205F ||
    n == 0x3000

/-- A space or a tab, the only separators inside a constraint line. -/
def isSpaceOrTab (c : Char) : Bool :=
  c == ' ' || c == '\t'

theorem isBlank_of_isSpaceOrTab {c : Char} (h : isSpaceOrTab c = true) : isBlank c = true := by
  simp only [isSpaceOrTab, Bool.or_eq_true, beq_iff_eq] at h
  rcases h with rfl | rfl <;> decide

/-! ## 2. Trimming -/

/-- The text without the characters of the class at its end. -/
def dropEnd (p : Char → Bool) (text : List Char) : List Char :=
  (text.reverse.dropWhile p).reverse

/-- The text without white space at its start. -/
def trimStart (text : List Char) : List Char :=
  text.dropWhile isBlank

/-- The text without white space at its end. -/
def trimEnd (text : List Char) : List Char :=
  dropEnd isBlank text

/-- The text without white space at either end. -/
def trim (text : List Char) : List Char :=
  trimEnd (trimStart text)

/-! ## 3. Words -/

/-- The pieces of the text between white space, none of them empty. -/
def words (text : List Char) : List (List Char) :=
  go text []
where
  /-- Reads on with the characters of the current word, in reverse. -/
  go : List Char → List Char → List (List Char)
    | [], [] => []
    | [], word => [word.reverse]
    | c :: rest, word =>
      if isBlank c then
        if word.isEmpty then go rest [] else word.reverse :: go rest []
      else go rest (c :: word)

end TestScout

/-!
# Places in a source

A place in a source is told by the bytes and by the line ends that stand before it.
-/

namespace TestScout.GoSource

/-- A place in a source: the bytes and the line ends before it. -/
structure Position where
  offset : Nat
  row : Nat
deriving DecidableEq, Repr, Inhabited

/-- The start of a source. -/
def Position.start : Position := ⟨0, 0⟩

/-- The place behind a character. -/
def Position.advance (place : Position) (c : Char) : Position :=
  ⟨place.offset + c.utf8Size, if c = '\n' then place.row + 1 else place.row⟩

/-- The place behind a text. -/
def Position.behind (place : Position) (text : List Char) : Position :=
  text.foldl Position.advance place

end TestScout.GoSource

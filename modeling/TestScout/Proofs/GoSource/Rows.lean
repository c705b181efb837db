import TestScout.Proofs.GoSource.Placed
import TestScout.Proofs.Text.LineIndex

/-!
# Rows of a source and lines of its index

The row of a declaration comes from the parser, which counts the line breaks on its way through the
source. The index is made from the bytes of the source alone, and has no line for a line break at
the very end. For every place in a source both give the same number. Main statement:

* `exact_ofBytes`: the index of any bytes is exact, and its lines are the rows of declarations.
-/

namespace TestScout

open GoSource

namespace LineIndex

/-- The index is exact for the bytes of a text: its starts ascend from the beginning, they are the
    places behind line breaks but one at the very end, and a search from one line break to the next
    one ends with the same starts; so the lines are counted by the line breaks, have starts where
    they exist, hold each place of the text once, and cut the text into its bytes. -/
structure IsExact (bytes : List UInt8) (index : LineIndex) : Prop where
  search : (Search.start.run bytes).starts = index.starts
  ascending : index.starts.Pairwise (· < ·)
  first : index.starts.head? = some 0
  starts : ∀ start, start ∈ index.starts ↔ start = 0 ∨
    ∃ place, bytes[place]? = some 10 ∧ place + 1 < bytes.length ∧ start = place + 1
  count : index.lineCount = 1 + bytes.dropLast.count 10
  exist : ∀ line, (index.startOfLine line).isSome = true ↔ 1 ≤ line ∧ line ≤ index.lineCount
  hold : ∀ place < bytes.length, ∀ line,
    index.LineHolds bytes.length line place ↔ line = 1 + (bytes.take place).count 10
  slices : (index.slices bytes).flatten = bytes

/-- **The index of any bytes is exact**, and where the bytes are those of a source, each declaration
    that stands in it has the number of the line that holds its first place. -/
theorem exact_ofBytes (bytes : List UInt8) :
    IsExact bytes (ofBytes bytes) ∧
      ∀ (source : String) (root : Node), source.toUTF8.toList = bytes →
        root.PlacesDeclarations source → ∀ declaration ∈ root.declarations,
          declaration.first.offset < bytes.length ∧
            declaration.line = 1 + (bytes.take declaration.first.offset).count 10 := by
  constructor
  · exact {
      search := Search.starts_run_start bytes
      ascending := pairwise_starts bytes
      first := rfl
      starts := fun _ => mem_starts_iff bytes
      count := lineCount_ofBytes bytes
      exist := fun _ => startOfLine_isSome_iff
      hold := fun _ hplace line => lineHolds_iff hplace line
      slices := flatten_slices bytes }
  · intro source root hbytes hplaced declaration hdeclaration
    obtain ⟨hwide, hstop, hline⟩ := Node.of_mem_declarations hplaced hdeclaration
    rw [hbytes] at hstop hline
    exact ⟨Nat.lt_of_lt_of_le hwide hstop, hline⟩

/-- A source that begins and ends with empty lines. -/
def gappedSource : String := "\n\npackage p\n\nfunc A() \x7b\x7d\n\n"

/-- Its tree, line ends left out. -/
def gappedTree : Node :=
  .cut gappedSource "source_file" 2 26 none
    [.packageClause gappedSource 2 "p", .emptyFunction gappedSource 13 24 "A"]

/-- Empty lines at both ends and in the middle: an empty line holds its own line break, and none
    comes behind the last one. -/
theorem exact_ofBytes_gappedSource :
    let bytes := gappedSource.toUTF8.toList
    IsExact bytes (ofBytes bytes) ∧ (Search.start.run bytes).starts = [0, 1, 2, 12, 13, 25] ∧
      (∀ line, (ofBytes bytes).LineHolds bytes.length line 12 ↔ line = 4) ∧
      (ofBytes bytes).startOfLine 7 = none ∧ gappedTree.PlacesDeclarations gappedSource ∧
      ∃ declaration ∈ gappedTree.declarations, declaration.name = "A" ∧ declaration.line = 5 ∧
        (ofBytes bytes).LineHolds bytes.length declaration.line declaration.first.offset := by
  intro bytes
  obtain ⟨hexact, hrows⟩ := exact_ofBytes bytes
  have hplaced : gappedTree.PlacesDeclarations gappedSource :=
    Node.placesDeclarations_of_forall
      ⟨Node.placedIn_cut _ _ (by decide) (by decide) _ _,
        Node.placedIn_cut _ _ (by decide) (by decide) _ _⟩
  let declaration : Declaration := ⟨"A", ⟨13, 4⟩, ⟨24, 4⟩, ""⟩
  have hmem : declaration ∈ gappedTree.declarations := by decide +kernel
  obtain ⟨hplace, hrow⟩ := hrows gappedSource gappedTree rfl hplaced declaration hmem
  have hbytes : bytes = gappedSource.toList.flatMap String.utf8EncodeChar :=
    ByteOrder.toUTF8_toList gappedSource
  have hstarts : (ofBytes bytes).starts = [0, 1, 2, 12, 13, 25] := by
    rw [hbytes]
    cbv
  refine ⟨hexact, hexact.search.trans hstarts, fun line => ?_, ?_, hplaced, declaration, hmem, rfl,
    rfl, ?_⟩
  · have hlength : 12 < bytes.length := Nat.lt_trans (by decide) hplace
    have hcount : 1 + (bytes.take 12).count 10 = 4 := by
      rw [hbytes]
      decide +kernel
    rw [hexact.hold 12 hlength, hcount]
  · unfold startOfLine
    rw [hstarts]
    rfl
  · exact (hexact.hold _ hplace _).mpr hrow

end LineIndex

end TestScout

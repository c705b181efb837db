import TestScout.FunctionLookup
import TestScout.Proofs.GoSource.Outermost
import TestScout.Proofs.GoSource.Placed
import TestScout.Proofs.Text.LineIndex

/-!
# Looking up the line of a declaration

Discovery reports the line on which a declaration starts, an editor looks functions up by line. The
two count lines in different ways, one by the row that the parser tells, the other by an index of
the bytes, and agree on where the line starts. They do not agree on what is there: a lookup asks for
the function around the *start* of the line, and a declaration behind a tab or behind a semicolon
starts later. Main statements:

* `exists_startOfLine`: the line that holds a place starts behind the last line break before it;
* `containingFunction_of_declared`: what a lookup of a declaration's line gives, for all sources and
  all trees; a declaration with nothing before it on its line is always found;
* `not_found_behind_tab`: a clean source where a declaration's line gives no function.
-/

namespace TestScout

open GoSource

/-! ## 1. The start of a line -/

/-- A line that starts at `start` holds a place: what stands before the start is a line break or
    nothing, and no line break stands between the two. -/
structure StartsLineOf (bytes : List UInt8) (place start : Nat) : Prop where
  le : start ≤ place
  behindBreak : start = 0 ∨ ∃ before, bytes[before]? = some 10 ∧ start = before + 1
  oneLine : ∀ between, start ≤ between → between < place → bytes[between]? ≠ some 10

/-- Up to which place the line breaks are counted makes no difference if none stands between. -/
theorem getElem?_ne_of_count_eq {bytes : List UInt8} {start place : Nat} (hle : start ≤ place)
    (hcount : (bytes.take start).count 10 = (bytes.take place).count 10) {between : Nat}
    (hstart : start ≤ between) (hplace : between < place) : bytes[between]? ≠ some 10 := by
  intro hbreak
  have hsplit : bytes.take place = bytes.take start ++ (bytes.drop start).take (place - start) := by
    rw [← List.take_add, Nat.add_sub_cancel' hle]
  rw [hsplit, List.count_append] at hcount
  have hnone : ((bytes.drop start).take (place - start)).count 10 = 0 := by omega
  have hthere : ((bytes.drop start).take (place - start))[between - start]? = some 10 := by
    rw [List.getElem?_take_of_lt (by omega), List.getElem?_drop, Nat.add_sub_cancel' hstart]
    exact hbreak
  exact List.count_eq_zero.mp hnone (List.mem_of_getElem? hthere)

/-- **The line that holds a place starts behind the last line break before it.** -/
theorem LineIndex.exists_startOfLine {bytes : List UInt8} {place : Nat} (h : place < bytes.length) :
    ∃ start, (ofBytes bytes).startOfLine (1 + (bytes.take place).count 10) = some start ∧
      StartsLineOf bytes place start := by
  obtain ⟨start, hsome, hle, hnext⟩ := (lineHolds_iff h _).mpr rfl
  -- the start itself lies in the line that it starts
  have hown : (ofBytes bytes).LineHolds bytes.length (1 + (bytes.take place).count 10) start :=
    ⟨start, hsome, Nat.le_refl _, Nat.lt_of_le_of_lt hle hnext⟩
  have hcount := (lineHolds_iff (Nat.lt_of_le_of_lt hle h) _).mp hown
  have hmem : start ∈ (ofBytes bytes).starts := by
    rw [Nat.add_comm] at hsome
    exact List.mem_of_getElem? hsome
  refine ⟨start, hsome, hle, ?_, fun between hstart hplace => ?_⟩
  · rcases (mem_starts_iff bytes).mp hmem with hzero | ⟨before, hbreak, -, heq⟩
    · exact Or.inl hzero
    · exact Or.inr ⟨before, hbreak, heq⟩
  · exact getElem?_ne_of_count_eq hle (by omega) hstart hplace

/-! ## 2. The line of a declaration -/

theorem containingFunction_of_startOfLine {parser : Parser} {source : String} {root : Node}
    {line place : Nat} (hparse : parser.parse source = .ok root)
    (h : (LineIndex.ofBytes source.toUTF8.toList).startOfLine line = some place) (path : Path)
    (column : Nat) :
    containingFunction parser path source line column =
      match root.enclosing place with
      | some name => .ok name
      | none => .error (.noFunction path line column) := by
  have hlocate := LineIndex.locate_of_startOfLine h
  cases hfound : root.enclosing place <;> simp only [containingFunction, hparse, hlocate, hfound]

/-- A place that a declaration right below the root holds has a function around it. -/
theorem GoSource.Node.exists_enclosing_of_child {root child : Node} (hchild : child ∈ root.children)
    {place : Nat} (h : child.Holds place) : ∃ name, root.enclosing place = some name := by
  cases hfound : root.enclosing place with
  | some name => exact ⟨name, rfl⟩
  | none =>
    obtain ⟨i, hi⟩ := List.mem_iff_getElem?.mp hchild
    have hthere : root.at? [i] = some child := at?_cons_eq_some_iff.mpr ⟨child, hi, rfl⟩
    exact absurd h (enclosing_eq_none_iff.mp hfound [i] child hthere)

/-- **Looking up the line of a declaration gives the function around the start of that line,
    whatever the column, and no other failure than that there is none.** The line starts behind the
    last line break before the declaration. With nothing before it on its line, a declaration holds
    the start of the line itself. -/
theorem containingFunction_of_declared {parser : Parser} {source : String} {root : Node}
    (hparse : parser.parse source = .ok root) (hplaced : root.PlacesDeclarations source)
    {declaration : Declaration} (h : declaration ∈ root.declarations) :
    ∃ start, StartsLineOf source.toUTF8.toList declaration.first.offset start ∧
      (∀ path column, containingFunction parser path source declaration.line column =
        match root.enclosing start with
        | some name => .ok name
        | none => .error (.noFunction path declaration.line column)) ∧
      (start = declaration.first.offset → ∃ name, ∀ path column,
        containingFunction parser path source declaration.line column = .ok name) := by
  obtain ⟨hwide, hstop, hline⟩ := Node.of_mem_declarations hplaced h
  obtain ⟨start, hstart, hstarts⟩ :=
    LineIndex.exists_startOfLine (Nat.lt_of_lt_of_le hwide hstop)
  rw [← hline] at hstart
  have hlookup := containingFunction_of_startOfLine hparse hstart
  refine ⟨start, hstarts, hlookup, fun heq => ?_⟩
  obtain ⟨child, hchild, hdeclaration, hname, hfirst, hlast⟩ :=
    Node.exists_child_of_mem_declarations h
  have hbefore : child.start = start := by rw [heq, Node.start, hfirst]
  have hbehind : start ≤ child.stop := by
    rw [heq, Node.stop, hlast]
    exact Nat.le_of_lt hwide
  have hholds : child.Holds start :=
    ⟨hdeclaration, Option.isSome_of_eq_some hname, Nat.le_of_eq hbefore, hbehind⟩
  obtain ⟨name, hfound⟩ := Node.exists_enclosing_of_child hchild hholds
  refine ⟨name, fun path column => ?_⟩
  rw [hlookup path column, hfound]

/-- A source where a function starts on the line on which another one ends. -/
def packedSource : String :=
  "package p\n\nfunc A() \x7b\n\x7d; func TestB() \x7b\x7d\n"

/-- Its tree, line ends left out. -/
def packedTree : Node :=
  .cut packedSource "source_file" 0 41 none
    [.packageClause packedSource 0 "p", .emptyFunction packedSource 11 23 "A",
      .cut packedSource ";" 23 24 none [], .emptyFunction packedSource 25 40 "TestB"]

theorem containingFunction_of_declared_packedSource :
    let parser := Parser.ofTable [(packedSource, packedTree)]
    parser.parse packedSource = .ok packedTree ∧ packedTree.PlacesDeclarations packedSource ∧
      ∃ declaration ∈ packedTree.declarations, declaration.name = "TestB" ∧
        ∃ start, StartsLineOf packedSource.toUTF8.toList declaration.first.offset start ∧
          (∀ path column, containingFunction parser path packedSource declaration.line column =
            match packedTree.enclosing start with
            | some name => .ok name
            | none => .error (.noFunction path declaration.line column)) ∧
          (start = declaration.first.offset → ∃ name, ∀ path column,
            containingFunction parser path packedSource declaration.line column = .ok name) := by
  intro parser
  have hparse : parser.parse packedSource = .ok packedTree := Parser.parse_ofTable (by simp)
  have hplaced : packedTree.PlacesDeclarations packedSource :=
    Node.placesDeclarations_of_forall
      ⟨Node.placedIn_cut _ _ (by decide) (by decide) _ _,
        Node.placedIn_cut _ _ (by decide) (by decide) _ _,
        Node.placedIn_cut _ _ (by decide) (by decide) _ _,
        Node.placedIn_cut _ _ (by decide) (by decide) _ _⟩
  let declaration : Declaration := ⟨"TestB", ⟨25, 3⟩, ⟨40, 3⟩, ""⟩
  have hmem : declaration ∈ packedTree.declarations := by decide +kernel
  exact ⟨hparse, hplaced, declaration, hmem, rfl,
    containingFunction_of_declared hparse hplaced hmem⟩

/-- A source with a function behind a tab. -/
def tabbedSource : String := "package p\n\n\tfunc TestA() \x7b\x7d\n"

/-- Its tree, line ends left out. -/
def tabbedTree : Node :=
  .cut tabbedSource "source_file" 0 28 none
    [.packageClause tabbedSource 0 "p", .emptyFunction tabbedSource 12 27 "TestA"]

/-- **Behind a tab the line of a declaration gives no function**, though the source is clean. -/
theorem not_found_behind_tab :
    ¬ ∀ (parser : Parser) (source : String) (root : Node), parser.AlwaysParses →
      parser.parse source = .ok root → root.ensureClean = .ok () →
      root.PlacesDeclarations source → ∀ declaration ∈ root.declarations, ∀ path column, ∃ name,
        containingFunction parser path source declaration.line column = .ok name := by
  intro hall
  have hparse : (Parser.ofTable [(tabbedSource, tabbedTree)]).parse tabbedSource =
      .ok tabbedTree := Parser.parse_ofTable (by simp)
  have hplaced : tabbedTree.PlacesDeclarations tabbedSource :=
    Node.placesDeclarations_of_forall
      ⟨Node.placedIn_cut _ _ (by decide) (by decide) _ _,
        Node.placedIn_cut _ _ (by decide) (by decide) _ _⟩
  let declaration : Declaration := ⟨"TestA", ⟨12, 2⟩, ⟨27, 2⟩, ""⟩
  have hmem : declaration ∈ tabbedTree.declarations := by decide +kernel
  obtain ⟨name, hname⟩ := hall _ tabbedSource tabbedTree (Parser.alwaysParses_ofTable _) hparse
    (by decide +kernel) hplaced declaration hmem ⟨"a.go"⟩ 1
  have hstart : (LineIndex.ofBytes tabbedSource.toUTF8.toList).startOfLine declaration.line =
      some 11 := by
    rw [ByteOrder.toUTF8_toList]
    cbv
  have hnone : tabbedTree.enclosing 11 = none := by
    rw [Node.enclosing, Node.firstEnclosing_eq]
    decide +kernel
  rw [containingFunction_of_startOfLine hparse hstart, hnone] at hname
  cases hname

end TestScout

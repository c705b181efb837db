import Mathlib.Data.List.Basic
import TestScout.GoSource.Declaration
import TestScout.GoSource.Parser
import TestScout.Proofs.Text.LineBreaks

/-!
# Where declarations stand

What the program makes of a tree hangs on where the parser says that declarations stand. What it
counts on is little: a declaration with a name is not empty, it ends within the source, and the row
in which it starts is told by the line breaks before it. Main statements:

* `behind_eq`, `row_behind`: a place counts the bytes and the line breaks before it;
* `PlacesDeclarations`: what is counted on;
* `of_mem_declarations`: what follows for the declarations of a source;
* `cut`, `ofTable`: trees of given sources, and a parser that knows them.
-/

namespace TestScout.GoSource

/-! ## 1. Places -/

/-- The bytes of a text. -/
def byteLength (text : List Char) : Nat :=
  (text.flatMap String.utf8EncodeChar).length

theorem byteLength_cons (c : Char) (text : List Char) :
    byteLength (c :: text) = c.utf8Size + byteLength text := by
  unfold byteLength
  rw [List.flatMap_cons, List.length_append, String.length_utf8EncodeChar]

theorem byteLength_append (front back : List Char) :
    byteLength (front ++ back) = byteLength front + byteLength back := by
  unfold byteLength
  rw [List.flatMap_append, List.length_append]

theorem byteLength_pos {text : List Char} (h : text ≠ []) : 0 < byteLength text := by
  obtain ⟨c, rest, rfl⟩ := List.exists_cons_of_ne_nil h
  rw [byteLength_cons]
  have hwide := c.utf8Size_pos
  omega

theorem length_toUTF8 (source : String) :
    source.toUTF8.toList.length = byteLength source.toList := by
  rw [ByteOrder.toUTF8_toList]
  rfl

namespace Position

theorem behind_cons (place : Position) (c : Char) (text : List Char) :
    place.behind (c :: text) = (place.advance c).behind text := rfl

theorem behind_append (place : Position) (front back : List Char) :
    place.behind (front ++ back) = (place.behind front).behind back :=
  List.foldl_append

/-- **A place counts the bytes and the line breaks before it.** -/
theorem behind_eq (place : Position) (text : List Char) :
    place.behind text = ⟨place.offset + byteLength text, place.row + text.count '\n'⟩ := by
  induction text generalizing place with
  | nil => rfl
  | cons c text ih =>
    rw [behind_cons, ih, advance, byteLength_cons, Nat.add_assoc]
    by_cases hc : c = '\n'
    · rw [if_pos hc, hc, List.count_cons_self, Nat.add_assoc, Nat.add_comm 1]
    · rw [if_neg hc, List.count_cons_of_ne hc]

theorem offset_le_behind (place : Position) (text : List Char) :
    place.offset ≤ (place.behind text).offset := by
  rw [behind_eq]
  exact Nat.le_add_right _ _

theorem offset_behind_start (text : List Char) :
    (start.behind text).offset = byteLength text := by
  rw [behind_eq]
  exact Nat.zero_add _

/-- **The row of a place counts the line breaks among the bytes before it.** -/
theorem row_behind {source : String} {before behind : List Char}
    (h : source.toList = before ++ behind) :
    (start.behind before).row =
      (source.toUTF8.toList.take (start.behind before).offset).count 10 := by
  have hbytes : source.toUTF8.toList =
      before.flatMap String.utf8EncodeChar ++ behind.flatMap String.utf8EncodeChar := by
    rw [ByteOrder.toUTF8_toList, h, List.flatMap_append]
  have hplace : start.behind before =
      ⟨(before.flatMap String.utf8EncodeChar).length, before.count '\n'⟩ := by
    rw [behind_eq]
    simp [start, byteLength]
  rw [hplace, hbytes, List.take_left, ByteOrder.count_lineBreak]

end Position

/-! ## 2. Declarations of a source -/

namespace Node

/-- The node stands in a source. -/
structure PlacedIn (source : String) (node : Node) : Prop where
  /-- It starts in the row that the line breaks before it tell. -/
  row_eq : node.label.first.row = (source.toUTF8.toList.take node.start).count 10
  /-- It is not empty if it has a name. -/
  wide : node.name.isSome → node.start < node.stop
  stop_le : node.stop ≤ source.toUTF8.toList.length

/-- The functions and methods at the top of a tree stand in a source. -/
def PlacesDeclarations (source : String) (root : Node) : Prop :=
  ∀ child ∈ root.children, child.IsDeclaration → child.PlacedIn source

end Node

/-- A tree all of whose top nodes stand in a source places its declarations there. -/
theorem Node.placesDeclarations_of_forall {source : String} {root : Node}
    (h : root.children.Forall (PlacedIn source)) : root.PlacesDeclarations source :=
  fun child hchild _ => List.forall_iff_forall_mem.mp h child hchild

theorem mem_declarationsOf {parts : List Part} {declaration : Declaration}
    (h : declaration ∈ declarationsOf parts) :
    Part.function declaration.name declaration.first declaration.last ∈ parts := by
  have hfunction : (declaration.name, declaration.first, declaration.last) ∈ functionsOf parts := by
    rw [← declarationsFrom_map [] parts]
    exact List.mem_map.mpr ⟨declaration, h, rfl⟩
  obtain ⟨part, hpart, hfound⟩ := List.mem_filterMap.mp hfunction
  cases part with
  | comment text first last => exact absurd hfound (by simp)
  | other first last => exact absurd hfound (by simp)
  | function name first last =>
    obtain ⟨rfl, rfl, rfl⟩ : name = declaration.name ∧ first = declaration.first ∧
        last = declaration.last := by simpa using hfound
    exact hpart

namespace Node

/-- A node is a part that is a function if it is a declaration with a name. -/
theorem part_eq_function_iff {node : Node} {name : String} {first last : Position} :
    node.part = .function name first last ↔
      node.IsDeclaration ∧ node.name = some name ∧ node.label.first = first ∧
        node.label.last = last := by
  have hcomment : node.IsDeclaration → node.label.kind ≠ "comment" := by
    intro hdeclaration hkind
    unfold IsDeclaration at hdeclaration
    rw [hkind] at hdeclaration
    exact absurd hdeclaration (by decide)
  dsimp only [part]
  by_cases hdeclaration : node.IsDeclaration
  · rw [if_neg (hcomment hdeclaration), if_pos hdeclaration]
    cases node.name <;> simp [hdeclaration]
  · rw [if_neg hdeclaration]
    split <;> simp [hdeclaration]

/-- **A declaration of a source is a node right below the root of its tree.** -/
theorem exists_child_of_mem_declarations {root : Node} {declaration : Declaration}
    (h : declaration ∈ root.declarations) :
    ∃ child ∈ root.children, child.IsDeclaration ∧ child.name = some declaration.name ∧
      child.label.first = declaration.first ∧ child.label.last = declaration.last := by
  obtain ⟨child, hchild, hpart⟩ := List.mem_map.mp (mem_declarationsOf h)
  exact ⟨child, hchild, part_eq_function_iff.mp hpart⟩

/-- **Where the declarations of a source stand**, if the parser places them in it: they are not
    empty, lie within the source, and their lines count the line breaks before them. -/
theorem of_mem_declarations {source : String} {root : Node} {declaration : Declaration}
    (hplaced : root.PlacesDeclarations source) (h : declaration ∈ root.declarations) :
    declaration.first.offset < declaration.last.offset ∧
      declaration.last.offset ≤ source.toUTF8.toList.length ∧
      declaration.line = 1 + (source.toUTF8.toList.take declaration.first.offset).count 10 := by
  obtain ⟨child, hchild, hdeclaration, hname, hfirst, hlast⟩ :=
    exists_child_of_mem_declarations h
  have hplace := hplaced child hchild hdeclaration
  have hrow := hplace.row_eq
  have hwide := hplace.wide (Option.isSome_of_eq_some hname)
  have hstop := hplace.stop_le
  unfold start at hrow hwide
  unfold stop at hwide hstop
  rw [hfirst] at hrow hwide
  rw [hlast] at hwide hstop
  refine ⟨hwide, hstop, ?_⟩
  unfold Declaration.line
  rw [hrow, Nat.add_comm]

/-! ## 3. Trees of given sources -/

/-- The node of a kind that covers the characters of a source from the number `first` on, up to the
    number `last`. -/
def cut (source : String) (kind : String) (first last : Nat) (name : Option String)
    (children : List Node) : Node :=
  let before := source.toList.take first
  .mk { kind := kind
        first := Position.start.behind before
        column := byteLength (before.reverse.takeWhile (· ≠ '\n'))
        last := Position.start.behind (source.toList.take last)
        text := String.ofList ((source.toList.take last).drop first)
        nameField := name
        isError := kind = "ERROR"
        isMissing := false
        hasError := kind = "ERROR" || children.any (·.label.hasError) }
    children

/-- What covers characters of a source stands in it. -/
theorem placedIn_cut (source kind : String) {first last : Nat} (hwide : first < last)
    (hlast : last ≤ source.toList.length) (name : Option String) (children : List Node) :
    (cut source kind first last name children).PlacedIn source where
  row_eq := Position.row_behind (List.take_append_drop first source.toList).symm
  wide := by
    intro _
    show (Position.start.behind (source.toList.take first)).offset <
      (Position.start.behind (source.toList.take last)).offset
    have hsplit : source.toList.take last =
        source.toList.take first ++ (source.toList.drop first).take (last - first) := by
      rw [← List.take_add, Nat.add_sub_cancel' (Nat.le_of_lt hwide)]
    have hmore : (source.toList.drop first).take (last - first) ≠ [] := by
      rw [← List.length_pos_iff, List.length_take, List.length_drop]
      omega
    have hpos := byteLength_pos hmore
    rw [Position.offset_behind_start, Position.offset_behind_start, hsplit, byteLength_append]
    omega
  stop_le := by
    show (Position.start.behind (source.toList.take last)).offset ≤ _
    rw [Position.offset_behind_start, length_toUTF8]
    conv => rhs; rw [← List.take_append_drop last source.toList, byteLength_append]
    exact Nat.le_add_right _ _

/-- The clause that names a package, from the character `first` on. -/
def packageClause (source : String) (first : Nat) (name : String) : Node :=
  let stop := first + 8 + name.length
  cut source "package_clause" first stop none
    [cut source "package" first (first + 7) none [],
      cut source "package_identifier" (first + 8) stop none []]

/-- A function without parameters from the character `first` on, with what stands in its braces and
    behind the opening one. -/
def functionWith (source : String) (first last : Nat) (name : String) (inside : List Node) : Node :=
  let stop := first + 5 + name.length
  cut source "function_declaration" first last (some name)
    [cut source "func" first (first + 4) none [],
      cut source "identifier" (first + 5) stop none [],
      cut source "parameter_list" stop (stop + 2) none
        [cut source "(" stop (stop + 1) none [], cut source ")" (stop + 1) (stop + 2) none []],
      cut source "block" (stop + 3) last none
        (cut source "\x7b" (stop + 3) (stop + 4) none [] :: inside)]

/-- A function without parameters and statements between two numbers of characters. -/
def emptyFunction (source : String) (first last : Nat) (name : String) : Node :=
  functionWith source first last name [cut source "\x7d" (last - 1) last none []]

end Node

/-- A parser that knows the trees of some sources. Any other source is one node to it. -/
def Parser.ofTable (table : List (String × Node)) : Parser where
  grammarFault := none
  tree? source :=
    some ((table.lookup source).getD
      (.cut source "source_file" 0 source.length none []))

namespace Parser

/-- A parser that knows the sources that do no more than name one of these packages, line ends left
    out. -/
def ofClauses (names : List String) : Parser :=
  .ofTable (names.map fun name =>
    let source := "package " ++ name ++ "\n"
    (source, .cut source "source_file" 0 source.length none [.packageClause source 0 name]))

theorem alwaysParses_ofTable (table : List (String × Node)) : (ofTable table).AlwaysParses :=
  ⟨rfl, fun _ => rfl⟩

theorem parse_ofTable {table : List (String × Node)} {source : String} {tree : Node}
    (h : table.lookup source = some tree) : (ofTable table).parse source = .ok tree := by
  show Except.ok ((table.lookup source).getD _) = Except.ok tree
  rw [h]
  rfl

end Parser

end TestScout.GoSource

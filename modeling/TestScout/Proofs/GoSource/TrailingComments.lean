import Mathlib.Data.List.Chain
import TestScout.Proofs.GoSource.Placed

/-!
# Comments that trail code

A function is documented by the comments right above it. Which comments these are is decided from
the nearest one upwards, and whether a comment trails code is asked of the part right before it
alone. So a comment behind another comment is taken for documentation even where both stand in a row
in which an item ends. Main statements:

* `docAbove_reverse`: documentation is made from what the comments of a group say;
* `prefix_groupAbove_iff`: the group reaches up to a comment exactly when the comments from there on
  stand close together, right above the function, and no item ends right before the first of them in
  its row;
* `documents_iff_of_trailing`: a comment in a row in which an item ends is in the group exactly when
  another comment stands right before it;
* `documents_behind_comment`: a source where such a comment is all the documentation.
-/

namespace TestScout.GoSource

/-! ## 1. The comments above a function -/

/-- What a comment says, with its markers. -/
def Part.text : Part → String
  | .comment text _ _ => text
  | _ => ""

/-- Whether a part ends where the next comment group, or the function, can go on in a row: right
    above it for the nearest part, at most one row above it for the others. -/
def Part.Adjoins (nearest : Bool) (row : Nat) (part : Part) : Prop :=
  if nearest then part.last.row + 1 = row else row ≤ part.last.row + 1

instance (nearest : Bool) (row : Nat) (part : Part) : Decidable (part.Adjoins nearest row) :=
  inferInstanceAs (Decidable (if nearest then _ else _))

/-- The comments that document a function that starts in a row, given what stands before it; the
    nearest part comes first, here and there. -/
def groupAbove (nearest : Bool) (row : Nat) : List Part → List Part
  | [] => []
  | part :: before =>
    if part.isComment = true ∧ part.Adjoins nearest row ∧ trailsCode part.first.row before = false
    then part :: groupAbove false part.first.row before
    else []

theorem groupAbove_of_goes {nearest : Bool} {row : Nat} {part : Part} {before : List Part}
    (h : part.isComment = true ∧ part.Adjoins nearest row ∧
      trailsCode part.first.row before = false) :
    groupAbove nearest row (part :: before) = part :: groupAbove false part.first.row before :=
  if_pos h

theorem groupAbove_of_stops {nearest : Bool} {row : Nat} {part : Part} {before : List Part}
    (h : ¬ (part.isComment = true ∧ part.Adjoins nearest row ∧
      trailsCode part.first.row before = false)) : groupAbove nearest row (part :: before) = [] :=
  if_neg h

/-- **The comments found are those of the group.** -/
theorem commentsAbove_eq (nearest : Bool) (row : Nat) (found : List String) (before : List Part) :
    commentsAbove nearest row found before =
      ((groupAbove nearest row before).map Part.text).reverse ++ found := by
  induction before generalizing nearest row found with
  | nil => rfl
  | cons part before ih =>
    cases part with
    | function name first last => rfl
    | other first last => rfl
    | comment text first last =>
      by_cases hgoes : (Part.comment text first last).Adjoins nearest row ∧
          trailsCode first.row before = false
      · have hfound : commentsAbove nearest row found (.comment text first last :: before) =
            commentsAbove false first.row (text :: found) before := if_pos hgoes
        rw [hfound, ih, groupAbove_of_goes ⟨rfl, hgoes⟩, List.map_cons, List.reverse_cons,
          List.append_assoc]
        rfl
      · have hfound : commentsAbove nearest row found (.comment text first last :: before) =
            found := if_neg hgoes
        rw [hfound, groupAbove_of_stops fun h => hgoes h.2]
        rfl

/-- What the comments above a row say, from top to bottom, given what stands before the row. -/
def groupTexts (row : Nat) (above : List Part) : List (List Char) :=
  (groupAbove true row above.reverse).reverse.map fun part => part.text.toList

/-- **The documentation is made from what the comments of the group say.** -/
theorem docAbove_reverse (row : Nat) (above : List Part) :
    docAbove row above.reverse = String.ofList (DocText.ofComments (groupTexts row above)) := by
  rw [docAbove, commentsAbove_eq, List.append_nil, ← List.map_reverse, List.map_map]
  rfl

/-- A function is declared with the documentation above it. -/
theorem mem_declarationsFrom (before above below : List Part) (name : String)
    (first last : Position) :
    ⟨name, first, last, docAbove first.row (above.reverse ++ before)⟩ ∈
      declarationsFrom before (above ++ .function name first last :: below) := by
  induction above generalizing before with
  | nil => exact List.mem_cons_self
  | cons part above ih =>
    have hnext := ih (part :: before)
    rw [List.reverse_cons, List.append_assoc]
    cases part with
    | comment text first last => exact hnext
    | other first last => exact hnext
    | function name first last => exact List.mem_cons_of_mem _ hnext

/-! ## 2. How far a group reaches -/

/-- Comments, the nearest first, that stand close together right above a row. -/
structure IsGroup (nearest : Bool) (row : Nat) (comments : List Part) : Prop where
  onlyComments : ∀ part ∈ comments, part.isComment = true
  above : ∀ part ∈ comments.head?, part.Adjoins nearest row
  joined : comments.IsChain fun lower upper => upper.Adjoins false lower.first.row

theorem isGroup_cons_iff {nearest : Bool} {row : Nat} {part : Part} {rest : List Part} :
    IsGroup nearest row (part :: rest) ↔
      part.isComment = true ∧ part.Adjoins nearest row ∧ IsGroup false part.first.row rest := by
  constructor
  · rintro ⟨hcomments, habove, hjoined⟩
    obtain ⟨hpart, hrest⟩ := List.forall_mem_cons.mp hcomments
    obtain ⟨hnext, hchain⟩ := List.isChain_cons.mp hjoined
    exact ⟨hpart, habove part rfl, hrest, hnext, hchain⟩
  · rintro ⟨hpart, habove, hcomments, hnext, hchain⟩
    refine ⟨List.forall_mem_cons.mpr ⟨hpart, hcomments⟩, ?_, List.isChain_cons.mpr ⟨hnext, hchain⟩⟩
    intro found hfound
    obtain rfl : part = found := Option.some.inj hfound
    exact habove

theorem trailsCode_of_isComment {part : Part} (h : part.isComment = true) (row : Nat)
    (before : List Part) : trailsCode row (part :: before) = false := by
  simp [trailsCode, h]

/-- **A group reaches up to a comment exactly when the comments from there on stand close together,
    and the comment does not stand right behind an item in the row in which that ends.** Behind a
    comment no comment of the group trails code. -/
theorem prefix_groupAbove_iff {nearest : Bool} {row : Nat} {comment : Part}
    {nearer before : List Part} :
    nearer ++ [comment] <+: groupAbove nearest row (nearer ++ comment :: before) ↔
      IsGroup nearest row (nearer ++ [comment]) ∧ trailsCode comment.first.row before = false := by
  induction nearer generalizing nearest row with
  | nil =>
    rw [List.nil_append, List.nil_append, isGroup_cons_iff]
    by_cases hgoes : comment.isComment = true ∧ comment.Adjoins nearest row ∧
        trailsCode comment.first.row before = false
    · rw [groupAbove_of_goes hgoes]
      have hnil : IsGroup false comment.first.row [] :=
        ⟨fun _ h => absurd h List.not_mem_nil, fun _ h => absurd h (by simp), .nil⟩
      exact ⟨fun _ => ⟨⟨hgoes.1, hgoes.2.1, hnil⟩, hgoes.2.2⟩,
        fun _ => List.cons_prefix_cons.mpr ⟨rfl, List.nil_prefix⟩⟩
    · rw [groupAbove_of_stops hgoes]
      refine ⟨fun h => absurd (List.prefix_nil.mp h) (List.cons_ne_nil _ _), ?_⟩
      rintro ⟨⟨hcomment, habove, -⟩, htrails⟩
      exact absurd ⟨hcomment, habove, htrails⟩ hgoes
  | cons part nearer ih =>
    rw [List.cons_append, List.cons_append, isGroup_cons_iff]
    -- what stands before the part is a comment of the group, so the part does not trail code
    have hbehind (h : IsGroup false part.first.row (nearer ++ [comment])) :
        trailsCode part.first.row (nearer ++ comment :: before) = false := by
      cases nearer with
      | nil => exact trailsCode_of_isComment (h.onlyComments comment List.mem_cons_self) _ _
      | cons next nearer =>
        exact trailsCode_of_isComment (h.onlyComments next List.mem_cons_self) _ _
    by_cases hgoes : part.isComment = true ∧ part.Adjoins nearest row ∧
        trailsCode part.first.row (nearer ++ comment :: before) = false
    · rw [groupAbove_of_goes hgoes, List.cons_prefix_cons, ih]
      exact ⟨fun h => ⟨⟨hgoes.1, hgoes.2.1, h.2.1⟩, h.2.2⟩, fun h => ⟨rfl, h.1.2.2, h.2⟩⟩
    · rw [groupAbove_of_stops hgoes]
      refine ⟨fun h => absurd (List.prefix_nil.mp h) (List.cons_ne_nil _ _), ?_⟩
      rintro ⟨⟨hpart, habove, hrest⟩, -⟩
      exact absurd ⟨hpart, habove, hbehind hrest⟩ hgoes

/-! ## 3. Comments behind items -/

/-- Parts that stand one behind the other, row by row. -/
structure InRows (parts : List Part) : Prop where
  wide : ∀ part ∈ parts, part.first.row ≤ part.last.row
  apart : parts.Pairwise fun earlier later => earlier.last.row ≤ later.first.row

/-- The comment ends up in the documentation of a function that starts in a row: it is in the group
    above that row. Given is what stands before the comment and what between the two. -/
def Documents (front : List Part) (comment : Part) (between : List Part) (row : Nat) : Prop :=
  between.reverse ++ [comment] <+: groupAbove true row (front ++ comment :: between).reverse

instance (front : List Part) (comment : Part) (between : List Part) (row : Nat) :
    Decidable (Documents front comment between row) :=
  inferInstanceAs (Decidable (_ <+: _))

/-- Some item ends in the row in which the comment starts. -/
def Trails (front : List Part) (comment : Part) : Prop :=
  ∃ item ∈ front, item.isComment = false ∧ item.last.row = comment.first.row

theorem documents_iff {front between : List Part} {comment : Part} {row : Nat} :
    Documents front comment between row ↔ IsGroup true row (comment :: between).reverse ∧
      trailsCode comment.first.row front.reverse = false := by
  have hreverse : (front ++ comment :: between).reverse =
      between.reverse ++ comment :: front.reverse := by simp
  rw [Documents, hreverse, prefix_groupAbove_iff, List.reverse_cons]

/-- Where an item ends in the row of a comment, so does the part right before the comment. -/
theorem last_row_of_trails {front behind : List Part} {neighbour comment : Part}
    (horder : InRows (front ++ [neighbour] ++ comment :: behind))
    (htrails : Trails (front ++ [neighbour]) comment) :
    neighbour.last.row = comment.first.row := by
  obtain ⟨item, hitem, -, hrow⟩ := htrails
  obtain ⟨hfront, -, hacross⟩ := List.pairwise_append.mp horder.apart
  have hnear : neighbour.last.row ≤ comment.first.row :=
    hacross neighbour (by simp) comment List.mem_cons_self
  rcases List.mem_append.mp hitem with hitem | hitem
  · have hup : item.last.row ≤ neighbour.first.row :=
      (List.pairwise_append.mp hfront).2.2 item hitem neighbour List.mem_cons_self
    have hwide : neighbour.first.row ≤ neighbour.last.row := horder.wide neighbour (by simp)
    omega
  · rw [← List.mem_singleton.mp hitem]
    exact hrow

/-- **A comment in a row in which an item ends is kept out of the documentation by that only if no
    other comment stands right before it.** The declaration is documented by what the group says. -/
theorem documents_iff_of_trailing {front between : List Part} {comment : Part}
    (horder : InRows (front ++ comment :: between)) (htrails : Trails front comment)
    (name : String) (first last : Position) (below : List Part) :
    (Documents front comment between first.row ↔
      IsGroup true first.row (comment :: between).reverse ∧
        ∃ neighbour ∈ front.getLast?, neighbour.isComment = true) ∧
    ⟨name, first, last, String.ofList
      (DocText.ofComments (groupTexts first.row (front ++ comment :: between)))⟩ ∈
      declarationsOf (front ++ comment :: between ++ .function name first last :: below) := by
  refine ⟨?_, ?_⟩
  · rw [documents_iff, and_congr_right_iff]
    intro _
    rcases List.eq_nil_or_concat front with rfl | ⟨start, neighbour, rfl⟩
    · obtain ⟨item, hitem, -⟩ := htrails
      exact absurd hitem List.not_mem_nil
    · rw [List.concat_eq_append] at horder htrails ⊢
      have hrow := last_row_of_trails horder htrails
      rw [List.reverse_concat, List.getLast?_concat]
      simp [trailsCode, hrow]
  · have hmem := mem_declarationsFrom [] (front ++ comment :: between) below name first last
    rwa [List.append_nil, docAbove_reverse] at hmem

/-- A source with two comments behind the end of an item, above a function. -/
def trailedSource : String := "package p; /* a */ // b\nfunc A() \x7b\x7d\n"

/-- The parts of the source before the second comment. -/
def trailedFront : List Part :=
  [.other ⟨0, 0⟩ ⟨9, 0⟩, .other ⟨9, 0⟩ ⟨10, 0⟩, .comment "/* a */" ⟨11, 0⟩ ⟨18, 0⟩]

/-- The second comment of the source. -/
def trailedComment : Part := .comment "// b" ⟨19, 0⟩ ⟨23, 0⟩

theorem inRows_trailedSource : InRows (trailedFront ++ [trailedComment]) :=
  ⟨by decide, by decide⟩

theorem trails_trailedSource : Trails trailedFront trailedComment :=
  ⟨.other ⟨0, 0⟩ ⟨9, 0⟩, by decide, by decide, by decide⟩

theorem documents_iff_of_trailing_trailedSource :
    InRows (trailedFront ++ [trailedComment]) ∧ Trails trailedFront trailedComment ∧
      (Documents trailedFront trailedComment [] 1 ↔ IsGroup true 1 [trailedComment] ∧
        ∃ neighbour ∈ trailedFront.getLast?, neighbour.isComment = true) ∧
      ⟨"A", ⟨24, 1⟩, ⟨35, 1⟩, String.ofList
        (DocText.ofComments (groupTexts 1 (trailedFront ++ [trailedComment])))⟩ ∈
        declarationsOf (trailedFront ++ [trailedComment] ++ [.function "A" ⟨24, 1⟩ ⟨35, 1⟩]) :=
  ⟨inRows_trailedSource, trails_trailedSource,
    documents_iff_of_trailing inRows_trailedSource trails_trailedSource "A" ⟨24, 1⟩ ⟨35, 1⟩ []⟩

/-- The tree of the source, line ends left out. -/
def trailedTree : Node :=
  .cut trailedSource "source_file" 0 36 none
    [.packageClause trailedSource 0 "p", .cut trailedSource ";" 9 10 none [],
      .cut trailedSource "comment" 11 18 none [], .cut trailedSource "comment" 19 23 none [],
      .emptyFunction trailedSource 24 35 "A"]

/-- **Behind another comment, a comment in the row in which an item ends is documentation.** -/
theorem documents_behind_comment :
    trailedTree.declarations.map (fun found => (found.name, found.doc)) = [("A", "b\n")] ∧
      ¬ ∀ (root : Node) (front between below : List Part) (comment : Part) (name : String)
          (first last : Position),
        root.children.map Node.part =
          front ++ comment :: between ++ .function name first last :: below →
        InRows (root.children.map Node.part) → comment.isComment = true → Trails front comment →
        ¬ Documents front comment between first.row := by
  have hparts : trailedTree.children.map Node.part =
      trailedFront ++ trailedComment :: [] ++ .function "A" ⟨24, 1⟩ ⟨35, 1⟩ :: [] := by
    decide +kernel
  refine ⟨?_, fun hall => ?_⟩
  · rw [Node.declarations, hparts]
    decide
  · have horder : InRows (trailedTree.children.map Node.part) := by
      rw [hparts]
      exact ⟨by decide, by decide⟩
    exact hall trailedTree _ _ _ _ _ _ _ hparts horder rfl trails_trailedSource (by decide)

end TestScout.GoSource

import TestScout.Text.Blank

/-!
# Sets of tags

A tag set keeps its tags in the order in which they were inserted and holds no tag twice. A set is
written as its tags with commas between them, and read from any text in which commas or spaces
separate the tags. Order is for display: two sets are equal when they have the same members.
-/

namespace TestScout

/-- Tags without repetition, in the order of insertion. -/
structure TagSet where
  tags : List String
  nodup : tags.Nodup
deriving DecidableEq, Repr

namespace TagSet

/-! ## 1. Operations -/

/-- No tags. -/
def empty : TagSet := ⟨[], List.nodup_nil⟩

instance : Inhabited TagSet := ⟨empty⟩

/-- Whether the tag is in the set. -/
def contains (set : TagSet) (tag : String) : Bool :=
  set.tags.contains tag

/-- Whether the set has no tag. -/
def isEmpty (set : TagSet) : Bool :=
  set.tags.isEmpty

/-- The set with the tag, at the end if it was not in it. -/
def insert (set : TagSet) (tag : String) : TagSet :=
  if h : tag ∈ set.tags then set
  else ⟨set.tags ++ [tag], by
    simp only [List.nodup_append, List.nodup_cons, List.not_mem_nil, not_false_eq_true,
      List.nodup_nil, and_self, List.mem_cons, or_false, ne_eq, forall_eq, set.nodup, true_and]
    rintro other hmem rfl
    exact h hmem⟩

/-- The set without the tag; the other tags keep their order. -/
def remove (set : TagSet) (tag : String) : TagSet :=
  ⟨set.tags.erase tag, set.nodup.erase tag⟩

/-- What is done to a set. -/
inductive Operation where
  | insert (tag : String)
  | remove (tag : String)
deriving DecidableEq, Repr

/-- The set after an operation, and whether the tag has come in or gone out. -/
def perform (set : TagSet) : Operation → TagSet × Bool
  | .insert tag => (set.insert tag, !set.contains tag)
  | .remove tag => (set.remove tag, set.contains tag)

/-- The set of the tags of a list, each at its first place. -/
def ofList (tags : List String) : TagSet :=
  tags.foldl insert empty

/-- Whether two sets have the same members. -/
def same (x y : TagSet) : Bool :=
  x.tags.all y.contains && y.tags.all x.contains

/-! ## 2. Text -/

/-- The characters that separate tags. -/
def isSeparator (c : Char) : Bool :=
  c == ',' || c == ' '

/-- The pieces of a text between separators, some of which may be empty. -/
def pieces (text : List Char) : List (List Char) :=
  text.splitOnP isSeparator

/-- The set that a text lists; nothing between two separators is no tag. -/
def parse (text : String) : TagSet :=
  ofList (((pieces text.toList).map trim).filter (!·.isEmpty) |>.map String.ofList)

/-- The set as a text. -/
def render (set : TagSet) : String :=
  ",".intercalate set.tags

/-! ## 3. What the operations do to the members -/

@[simp] theorem tags_empty : empty.tags = [] := rfl

theorem contains_iff {set : TagSet} {tag : String} : set.contains tag = true ↔ tag ∈ set.tags := by
  simp [contains]

/-- **Inserting adds the tag at the end unless it is there.** -/
theorem tags_insert (set : TagSet) (tag : String) :
    (set.insert tag).tags = if tag ∈ set.tags then set.tags else set.tags ++ [tag] := by
  unfold insert
  split <;> simp_all

@[simp] theorem mem_insert {set : TagSet} {tag other : String} :
    other ∈ (set.insert tag).tags ↔ other ∈ set.tags ∨ other = tag := by
  rw [tags_insert]
  split
  · rename_i h
    constructor
    · exact Or.inl
    · rintro (h' | rfl)
      · exact h'
      · exact h
  · simp

/-- **Removing takes the tag out and nothing else.** -/
@[simp] theorem mem_remove {set : TagSet} {tag other : String} :
    other ∈ (set.remove tag).tags ↔ other ≠ tag ∧ other ∈ set.tags := by
  simp [remove, set.nodup.mem_erase_iff]

end TagSet

end TestScout

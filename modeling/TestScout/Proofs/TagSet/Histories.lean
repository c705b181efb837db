import TestScout.Proofs.Lists
import TestScout.Proofs.TagSet.Reading

/-!
# Sets of tags and their histories

A tag set is read from a text and then changed by insertions and removals. Reading is a history too,
of one insertion for every tag that the text lists, so a set is what its whole history makes of the
empty one. A tag is in the set if it was inserted and not removed since, and it stands where it came
in: inserting it once more moves nothing, and only a removal makes room for a later place. Main
statements:

* `IsOut`, `ComesIn`: what a history says of a tag, without making the set;
* `follows_perform`: a set that follows its history follows it after one more operation;
* `follows_performAll`: so it does after any operations;
* `perform_changes_iff`: an operation tells whether it has changed the members;
* `follows_parse`: what holds of a set that was read and changed, and of its text.
-/

namespace TestScout.TagSet

/-! ## 1. Histories -/

/-- The set after operations, one after the other. -/
def performAll (set : TagSet) (operations : List Operation) : TagSet :=
  operations.foldl (fun set operation => (set.perform operation).1) set

/-- The tag is not in after the history: wherever it is inserted, it is removed later. -/
def IsOut (history : List Operation) (tag : String) : Prop :=
  ∀ before behind, history = before ++ .insert tag :: behind → .remove tag ∈ behind

/-- The tag comes in at a place of the history for the last time: it is out before, it is inserted
    there, and it is not removed later. -/
def ComesIn (history : List Operation) (tag : String) (place : Nat) : Prop :=
  ∃ before behind, history = before ++ .insert tag :: behind ∧ before.length = place ∧
    IsOut before tag ∧ .remove tag ∉ behind

/-- The set is what the history says: its tags are those that come in, in the order in which they
    do, and the other tags are out. -/
structure Follows (history : List Operation) (set : TagSet) : Prop where
  members : ∀ tag, tag ∈ set.tags ↔ ∃ place, ComesIn history tag place
  out : ∀ tag, tag ∉ set.tags ↔ IsOut history tag
  ordered : set.tags.Pairwise fun x y => ∀ i j, ComesIn history x i → ComesIn history y j → i < j

/-! ## 2. One more operation in a history -/

theorem isOut_insert_iff {history : List Operation} {tag other : String} :
    IsOut (history ++ [.insert other]) tag ↔ tag ≠ other ∧ IsOut history tag := by
  unfold IsOut
  constructor
  · intro h
    refine ⟨fun hsame => ?_, fun before behind hcut => ?_⟩
    · rw [hsame] at h
      exact absurd (h history [] rfl) List.not_mem_nil
    · have hmem := h before (behind ++ [.insert other]) (by simp [hcut])
      simpa using hmem
  · intro h before behind hcut
    rcases concat_eq_append_cons_iff.mp hcut with ⟨-, hsame, -⟩ | ⟨rest, rfl, hrest⟩
    · exact absurd (Operation.insert.inj hsame).symm h.1
    · exact List.mem_append_left _ (h.2 before rest hrest)

theorem isOut_remove_iff {history : List Operation} {tag other : String} :
    IsOut (history ++ [.remove other]) tag ↔ tag = other ∨ IsOut history tag := by
  unfold IsOut
  constructor
  · intro h
    by_cases htag : tag = other
    · exact Or.inl htag
    · refine Or.inr fun before behind hcut => ?_
      have hmem := h before (behind ++ [.remove other]) (by simp [hcut])
      simpa [htag] using hmem
  · intro h before behind hcut
    rcases concat_eq_append_cons_iff.mp hcut with ⟨-, hsame, -⟩ | ⟨rest, rfl, hrest⟩
    · cases hsame
    · rcases h with rfl | h
      · exact List.mem_append_right _ List.mem_cons_self
      · exact List.mem_append_left _ (h before rest hrest)

/-- **An insertion lets a tag in that is out**, at its own place, and moves no other. -/
theorem comesIn_insert_iff {history : List Operation} {tag other : String} {place : Nat} :
    ComesIn (history ++ [.insert other]) tag place ↔
      ComesIn history tag place ∨ tag = other ∧ place = history.length ∧ IsOut history tag := by
  unfold ComesIn
  constructor
  · intro h
    obtain ⟨before, behind, hcut, hplace, hout, hstays⟩ := h
    rcases concat_eq_append_cons_iff.mp hcut with ⟨rfl, hsame, -⟩ | ⟨rest, rfl, hrest⟩
    · exact Or.inr ⟨(Operation.insert.inj hsame).symm, hplace.symm, hout⟩
    · exact Or.inl ⟨before, rest, hrest, hplace, hout, fun hmem =>
        hstays (List.mem_append_left _ hmem)⟩
  · intro h
    rcases h with ⟨before, behind, rfl, hplace, hout, hstays⟩ | ⟨rfl, rfl, hout⟩
    · exact ⟨before, behind ++ [.insert other], by simp, hplace, hout, by simpa using hstays⟩
    · exact ⟨history, [], rfl, rfl, hout, List.not_mem_nil⟩

/-- **A removal puts its own tag out** and moves no other. -/
theorem comesIn_remove_iff {history : List Operation} {tag other : String} {place : Nat} :
    ComesIn (history ++ [.remove other]) tag place ↔ tag ≠ other ∧ ComesIn history tag place := by
  unfold ComesIn
  constructor
  · intro h
    obtain ⟨before, behind, hcut, hplace, hout, hstays⟩ := h
    rcases concat_eq_append_cons_iff.mp hcut with ⟨-, hsame, -⟩ | ⟨rest, rfl, hrest⟩
    · cases hsame
    · rw [List.mem_append, not_or] at hstays
      refine ⟨fun hsame => ?_, before, rest, hrest, hplace, hout, hstays.1⟩
      rw [hsame] at hstays
      exact hstays.2 List.mem_cons_self
  · intro h
    obtain ⟨htag, before, behind, rfl, hplace, hout, hstays⟩ := h
    exact ⟨before, behind ++ [.remove other], by simp, hplace, hout, by simp [hstays, htag]⟩

theorem ComesIn.lt_length {history : List Operation} {tag : String} {place : Nat}
    (h : ComesIn history tag place) : place < history.length := by
  obtain ⟨before, behind, rfl, rfl, -⟩ := h
  simp

/-! ## 3. Sets that follow their history -/

theorem follows_empty : Follows [] empty where
  members tag := by simp [ComesIn]
  out tag := by simp [IsOut]
  ordered := .nil

/-- A tag that is inserted stands behind all others, unless it is there already. -/
theorem Follows.insert {history : List Operation} {set : TagSet} (h : Follows history set)
    (other : String) : Follows (history ++ [.insert other]) (set.insert other) where
  members tag := by
    simp only [mem_insert, comesIn_insert_iff, exists_or, ← h.members]
    constructor
    · intro hin
      rcases hin with hmem | rfl
      · exact Or.inl hmem
      · by_cases hmem : tag ∈ set.tags
        · exact Or.inl hmem
        · exact Or.inr ⟨_, rfl, rfl, (h.out tag).mp hmem⟩
    · intro hin
      rcases hin with hmem | ⟨-, rfl, -⟩
      · exact Or.inl hmem
      · exact Or.inr rfl
  out tag := by
    rw [isOut_insert_iff, ← h.out, mem_insert, not_or, and_comm]
  ordered := by
    have hkept : set.tags.Pairwise fun x y => ∀ i j, ComesIn (history ++ [.insert other]) x i →
        ComesIn (history ++ [.insert other]) y j → i < j := by
      -- a tag of the set is not out, so the new insertion is not where it comes in
      have hold : ∀ tag ∈ set.tags, ∀ place, ComesIn (history ++ [.insert other]) tag place →
          ComesIn history tag place := by
        intro tag hmem place hcomes
        rcases comesIn_insert_iff.mp hcomes with hcomes | ⟨-, -, hout⟩
        · exact hcomes
        · exact absurd hmem ((h.out tag).mpr hout)
      refine h.ordered.imp_of_mem fun {x y} hx hy hxy i j hi hj => ?_
      exact hxy i j (hold x hx i hi) (hold y hy j hj)
    rw [tags_insert]
    split
    · exact hkept
    · rename_i hnew
      refine List.pairwise_append.mpr ⟨hkept, List.pairwise_singleton _ _, ?_⟩
      intro x hx y hy i j hi hj
      obtain rfl := List.mem_singleton.mp hy
      have hplace : j = history.length := by
        rcases comesIn_insert_iff.mp hj with hj | ⟨-, hj, -⟩
        · exact absurd ((h.members y).mpr ⟨j, hj⟩) hnew
        · exact hj
      rcases comesIn_insert_iff.mp hi with hi | ⟨rfl, -, -⟩
      · rw [hplace]
        exact hi.lt_length
      · exact absurd hx hnew

/-- A tag that is removed leaves the others where they are. -/
theorem Follows.remove {history : List Operation} {set : TagSet} (h : Follows history set)
    (other : String) : Follows (history ++ [.remove other]) (set.remove other) where
  members tag := by
    simp only [mem_remove, comesIn_remove_iff, exists_and_left, ← h.members]
  out tag := by
    rw [isOut_remove_iff, ← h.out, mem_remove, not_and_or, not_not]
  ordered := by
    have hsub : (set.remove other).tags.Sublist set.tags := List.erase_sublist
    refine (h.ordered.sublist hsub).imp fun {x y} hxy i j hi hj => ?_
    exact hxy i j (comesIn_remove_iff.mp hi).2 (comesIn_remove_iff.mp hj).2

/-- **A set that follows its history follows it after one more operation.** -/
theorem follows_perform {history : List Operation} {set : TagSet} (h : Follows history set)
    (operation : Operation) : Follows (history ++ [operation]) (set.perform operation).1 := by
  cases operation with
  | insert tag => exact h.insert tag
  | remove tag => exact h.remove tag

/-- **So it does after any operations.** -/
theorem follows_performAll {history operations : List Operation} {set : TagSet}
    (h : Follows history set) : Follows (history ++ operations) (set.performAll operations) := by
  induction operations generalizing history set with
  | nil => simpa [performAll] using h
  | cons operation rest ih =>
    have hnext := ih (follows_perform h operation)
    rwa [List.append_assoc, List.singleton_append] at hnext

/-- **An operation tells whether it has changed the members.** -/
theorem perform_changes_iff {set : TagSet} {operation : Operation} :
    (set.perform operation).2 = true ↔
      ∃ tag, ¬ (tag ∈ set.tags ↔ tag ∈ (set.perform operation).1.tags) := by
  cases operation with
  | insert tag =>
    simp only [perform, Bool.not_eq_true', ← Bool.not_eq_true, contains_iff, mem_insert]
    constructor
    · exact fun hnew => ⟨tag, by simp [hnew]⟩
    · intro h hmem
      obtain ⟨other, hother⟩ := h
      refine hother ⟨Or.inl, fun hin => ?_⟩
      rcases hin with hin | rfl
      · exact hin
      · exact hmem
  | remove tag =>
    simp only [perform, contains_iff, mem_remove]
    constructor
    · exact fun hmem => ⟨tag, by simp [hmem]⟩
    · intro h
      obtain ⟨other, hother⟩ := h
      by_contra hmem
      exact hother ⟨fun hin => ⟨fun hsame => hmem (hsame ▸ hin), hin⟩, And.right⟩

/-! ## 4. Sets that are read -/

/-- The tags that a text lists, in their order and with repetitions. -/
def listedTags (text : String) : List String :=
  (entriesOf isSeparator text.toList).map String.ofList

/-- Reading a text is inserting the tags that it lists. -/
theorem parse_eq_performAll (text : String) :
    parse text = empty.performAll ((listedTags text).map .insert) := by
  rw [parse_eq]
  unfold ofList performAll listedTags
  rw [List.foldl_map (f := Operation.insert)]
  rfl

/-- A tag of the set was there before the operations or is inserted by one of them. -/
theorem mem_of_mem_performAll {set : TagSet} {operations : List Operation} {tag : String}
    (h : tag ∈ (set.performAll operations).tags) :
    tag ∈ set.tags ∨ .insert tag ∈ operations := by
  induction operations generalizing set with
  | nil => exact Or.inl h
  | cons operation rest ih =>
    rcases ih h with hmem | hmem
    · cases operation with
      | insert other =>
        rcases mem_insert.mp hmem with hmem | rfl
        · exact Or.inl hmem
        · exact Or.inr List.mem_cons_self
      | remove other => exact Or.inl (mem_remove.mp hmem).2
    · exact Or.inr (List.mem_cons_of_mem _ hmem)

/-- **A set that is read and changed follows its history and survives its text.** It holds no tag
    twice, its tags stand in the order in which they came in for the last time, its text is read
    back as the same tags in the same order, every operation tells whether it changes the members,
    and the set equals any other with the same members. The tags that are inserted stand for
    themselves in a list. -/
theorem follows_parse (text : String) {operations : List Operation}
    (h : ∀ tag, .insert tag ∈ operations → IsEntry isSeparator tag.toList) :
    let set := (parse text).performAll operations
    set.tags.Nodup ∧ Follows ((listedTags text).map .insert ++ operations) set ∧
      parse set.render = set ∧
      (∀ (now : TagSet) (operation : Operation), (now.perform operation).2 = true ↔
        ∃ tag, ¬ (tag ∈ now.tags ↔ tag ∈ (now.perform operation).1.tags)) ∧
      ∀ other, set.same other = true ↔ ∀ tag, tag ∈ set.tags ↔ tag ∈ other.tags := by
  intro set
  have hread : Follows ((listedTags text).map .insert) (parse text) := by
    rw [parse_eq_performAll]
    exact follows_performAll follows_empty
  refine ⟨set.nodup, follows_performAll hread, parse_render fun tag htag => ?_,
    fun _ _ => perform_changes_iff, fun _ => same_iff⟩
  rcases mem_of_mem_performAll htag with hmem | hmem
  · exact isEntry_of_mem_parse hmem
  · exact h tag hmem

/-- A tag that is removed and inserted again stands behind the others. -/
theorem follows_parse_repeated :
    let operations : List Operation :=
      [.remove "race", .insert "slow", .insert "race", .insert "unit", .remove "e2e"]
    let set := (parse " race,, unit\t race").performAll operations
    (∀ tag, .insert tag ∈ operations → IsEntry isSeparator tag.toList) ∧
      set.tags = ["unit", "slow", "race"] ∧
      Follows ((listedTags " race,, unit\t race").map .insert ++ operations) set ∧
      parse set.render = set := by
  intro operations set
  have hentries : ∀ tag, .insert tag ∈ operations → IsEntry isSeparator tag.toList := by
    intro tag htag
    simp only [operations, List.mem_cons, reduceCtorEq, Operation.insert.injEq, false_or,
      List.not_mem_nil, or_false] at htag
    rcases htag with rfl | rfl | rfl <;>
      exact ⟨by decide, by simp [isSeparator], by decide +kernel⟩
  obtain ⟨-, hfollows, hread, -⟩ := follows_parse " race,, unit\t race" hentries
  exact ⟨hentries, by decide +kernel, hfollows, hread⟩

end TestScout.TagSet

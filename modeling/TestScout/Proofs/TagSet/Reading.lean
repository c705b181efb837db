import TestScout.BuildEnv.Basic
import TestScout.Proofs.Text.Cutting

/-!
# What is written as a list is read back

Tags are written with commas between them, and so are experiments. Both are read in the same way: a
text is cut at the separators, the pieces are trimmed, and the empty ones are dropped. What this
leaves are entries, which stand for themselves in a list: written again with commas between them,
they are read back one by one. Main statements:

* `IsEntry`, `isEntry_of_mem`: what is read from a list;
* `entriesOf_intercalate`: entries with commas between them are read back;
* `parse_render`: a set of such tags is read back from its text;
* `mem_experimentTags`: the tags of experiments are their names behind a fixed start.
-/

namespace TestScout

/-! ## 1. Entries of a list -/

/-- What a list holds between separators: white space around an entry and empty entries do not
    count. -/
def entriesOf (isCut : Char → Bool) (text : List Char) : List (List Char) :=
  ((text.splitOnP isCut).map trim).filter (!·.isEmpty)

/-- A text that stands for itself in a list. -/
structure IsEntry (isCut : Char → Bool) (text : List Char) : Prop where
  nonempty : text ≠ []
  uncut : ∀ c ∈ text, isCut c = false
  trimmed : trim text = text

variable {isCut : Char → Bool}

/-- **What is read from a list stands for itself in it.** -/
theorem isEntry_of_mem {text entry : List Char} (h : entry ∈ entriesOf isCut text) :
    IsEntry isCut entry := by
  obtain ⟨hmem, hne⟩ := List.mem_filter.mp h
  obtain ⟨piece, hpiece, rfl⟩ := List.mem_map.mp hmem
  refine ⟨by simpa using hne, fun c hc => ?_, trim_trim piece⟩
  exact eq_false_of_mem_splitOnP hpiece ((infix_trim piece).subset hc)

/-- **Entries with commas between them are read back.** -/
theorem entriesOf_intercalate (hcomma : isCut ',' = true) {entries : List (List Char)}
    (h : ∀ entry ∈ entries, IsEntry isCut entry) :
    entriesOf isCut ([','].intercalate entries) = entries := by
  have hone : ∀ entry, IsEntry isCut entry →
      ([entry].map trim).filter (!·.isEmpty) = [entry] := by
    intro entry hentry
    simp [hentry.trimmed, hentry.nonempty]
  induction entries with
  | nil => rfl
  | cons entry rest ih =>
    have hentry := h entry List.mem_cons_self
    have hrest := ih fun other hother => h other (List.mem_cons_of_mem _ hother)
    cases rest with
    | nil =>
      rw [List.intercalate_singleton]
      unfold entriesOf
      rw [List.splitOnP_eq_singleton hentry.uncut]
      exact hone entry hentry
    | cons next more =>
      unfold entriesOf at hrest ⊢
      rw [List.intercalate_cons_cons, List.append_assoc, List.singleton_append,
        List.splitOnP_append_cons_of_forall_mem hentry.uncut _ hcomma, ← List.singleton_append,
        List.map_append, List.filter_append, hone entry hentry, hrest, List.singleton_append]

/-- An entry is not blank. -/
theorem IsEntry.exists_not_blank {entry : List Char} (h : IsEntry isCut entry) :
    ∃ c ∈ entry, isBlank c = false := by
  by_contra hnone
  refine h.nonempty (h.trimmed.symm.trans (trim_eq_nil_iff.mpr fun c hc => ?_))
  rw [← Bool.not_eq_false]
  exact fun hblank => hnone ⟨c, hc, hblank⟩

/-! ## 2. Sets of tags -/

namespace TagSet

theorem eq_of_tags {x y : TagSet} (h : x.tags = y.tags) : x = y := by
  cases x
  cases y
  cases h
  rfl

theorem same_iff {x y : TagSet} : x.same y = true ↔ ∀ tag, tag ∈ x.tags ↔ tag ∈ y.tags := by
  simp only [same, Bool.and_eq_true, List.all_eq_true, contains_iff]
  exact ⟨fun h tag => ⟨h.1 tag, h.2 tag⟩, fun h => ⟨fun tag => (h tag).mp, fun tag => (h tag).mpr⟩⟩

theorem mem_foldl_insert {tags : List String} {set : TagSet} {tag : String} :
    tag ∈ (tags.foldl insert set).tags ↔ tag ∈ set.tags ∨ tag ∈ tags := by
  induction tags generalizing set with
  | nil => simp
  | cons first rest ih => rw [List.foldl_cons, ih, mem_insert, List.mem_cons, or_assoc]

/-- **A set has the tags of the list that it was made of**, and no others. -/
theorem mem_ofList {tags : List String} {tag : String} : tag ∈ (ofList tags).tags ↔ tag ∈ tags := by
  unfold ofList
  rw [mem_foldl_insert]
  simp

/-- Tags that are new and differ from each other are all put at the end. -/
theorem tags_foldl_insert {tags : List String} {set : TagSet}
    (h : (set.tags ++ tags).Nodup) : (tags.foldl insert set).tags = set.tags ++ tags := by
  induction tags generalizing set with
  | nil => simp
  | cons first rest ih =>
    have hnew : first ∉ set.tags := by
      intro hmem
      exact (List.nodup_append.mp h).2.2 first hmem first List.mem_cons_self rfl
    have hnext : (set.insert first).tags = set.tags ++ [first] := by
      rw [tags_insert, if_neg hnew]
    rw [List.foldl_cons, ih, hnext, List.append_assoc, List.singleton_append]
    rwa [hnext, List.append_assoc, List.singleton_append]

/-- **A set is made again of its own tags.** -/
theorem ofList_tags (set : TagSet) : ofList set.tags = set := by
  refine eq_of_tags ?_
  unfold ofList
  rw [tags_foldl_insert]
  · rfl
  · exact set.nodup

theorem parse_eq (text : String) :
    parse text = ofList ((entriesOf isSeparator text.toList).map String.ofList) := rfl

/-- What is read as a tag stands for itself in a list of tags. -/
theorem isEntry_of_mem_parse {text tag : String} (h : tag ∈ (parse text).tags) :
    IsEntry isSeparator tag.toList := by
  rw [parse_eq, mem_ofList] at h
  obtain ⟨entry, hentry, rfl⟩ := List.mem_map.mp h
  rw [String.toList_ofList]
  exact isEntry_of_mem hentry

/-- **A set of tags that stand for themselves is read back from its text**, in the same order. -/
theorem parse_render {set : TagSet} (h : ∀ tag ∈ set.tags, IsEntry isSeparator tag.toList) :
    parse set.render = set := by
  have hentries : entriesOf isSeparator set.render.toList = set.tags.map String.toList := by
    unfold render
    rw [String.toList_intercalate]
    refine entriesOf_intercalate rfl fun entry hentry => ?_
    obtain ⟨tag, htag, rfl⟩ := List.mem_map.mp hentry
    exact h tag htag
  have htags : (set.tags.map String.toList).map String.ofList = set.tags := by
    simp [Function.comp_def]
  rw [parse_eq, hentries, htags, ofList_tags]

end TagSet

/-! ## 3. Tags of experiments -/

namespace BuildEnv

/-- The entries that switch an experiment on. -/
def switchedOn (entries : List (List Char)) : List (List Char) :=
  entries.filter fun entry => (after? ['n', 'o'] entry).isNone

/-- The tag of an experiment. -/
def experimentTag (name : String) : String :=
  experimentStart ++ name

theorem experimentTags_eq (value : String) :
    experimentTags value =
      TagSet.ofList ((switchedOn (entriesOf (· == ',') value.toList)).map
        fun entry => experimentTag (String.ofList entry)) := by
  unfold experimentTags switchedOn entriesOf
  rw [List.filter_filter]
  simp only [Bool.and_comm]
  rfl

/-- A text that stands for itself in a list of experiments and does not begin with `no`. -/
structure IsExperiment (name : String) : Prop where
  isEntry : IsEntry (· == ',') name.toList
  on : after? ['n', 'o'] name.toList = none

/-- **The tags of experiments are their names behind a fixed start.** -/
theorem mem_experimentTags {value tag : String} (h : tag ∈ (experimentTags value).tags) :
    ∃ name, IsExperiment name ∧ tag = experimentTag name := by
  rw [experimentTags_eq, TagSet.mem_ofList] at h
  obtain ⟨entry, hentry, rfl⟩ := List.mem_map.mp h
  obtain ⟨hmem, hon⟩ := List.mem_filter.mp hentry
  refine ⟨String.ofList entry, ⟨?_, ?_⟩, rfl⟩
  · rw [String.toList_ofList]
    exact isEntry_of_mem hmem
  · rw [String.toList_ofList]
    exact Option.isNone_iff_eq_none.mp hon

/-- **Experiments with commas between them give their tags.** -/
theorem experimentTags_intercalate {names : List String} (h : ∀ name ∈ names, IsExperiment name) :
    experimentTags (",".intercalate names) = TagSet.ofList (names.map experimentTag) := by
  have hentries :
      entriesOf (· == ',') (",".intercalate names).toList = names.map String.toList := by
    rw [String.toList_intercalate]
    refine entriesOf_intercalate rfl fun entry hentry => ?_
    obtain ⟨name, hname, rfl⟩ := List.mem_map.mp hentry
    exact (h name hname).isEntry
  have hkept : switchedOn (names.map String.toList) = names.map String.toList := by
    refine List.filter_eq_self.mpr fun entry hentry => ?_
    obtain ⟨name, hname, rfl⟩ := List.mem_map.mp hentry
    rw [(h name hname).on]
    rfl
  rw [experimentTags_eq, hentries, hkept, List.map_map]
  simp only [Function.comp_def, String.ofList_toList]

end BuildEnv

end TestScout

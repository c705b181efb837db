import TestScout.Proofs.TagSet.Reading

/-!
# Experiments that are switched off

A list of experiments has two kinds of entries: a name switches an experiment on, and a name behind
`no` switches it off. The tags are made of the entries one by one, so they are the tags of all names
in the list, whether or not an entry behind them switches the experiment off again. Main statements:

* `mem_experimentTags_iff`: the tags are those of the listed names, and no others;
* `mem_entries_iff`: a listed experiment stays on or is switched off for good, never both;
* `tag_iff_staysOn`: so the tags tell which experiments stay on exactly if none is switched off for
  good;
* `tag_kept`: the tag of an experiment that is switched off is kept.
-/

namespace TestScout.BuildEnv

/-! ## 1. Entries -/

/-- The entries that a value lists, without white space around them and without empty ones. -/
def experimentEntries (value : String) : List String :=
  (entriesOf (· == ',') value.toList).map String.ofList

/-- The start of every entry that switches an experiment off. -/
def offStart : String := "no"

/-- The entry that switches an experiment off. -/
def offEntry (name : String) : String :=
  offStart ++ name

/-- An entry that switches an experiment off. -/
def IsOff (entry : String) : Prop :=
  offStart.toList <+: entry.toList

instance (entry : String) : Decidable (IsOff entry) :=
  inferInstanceAs (Decidable (_ <+: _))

theorem after?_eq_none_iff {entry : List Char} :
    after? ['n', 'o'] entry = none ↔ ¬ IsOff (String.ofList entry) := by
  unfold IsOff after?
  rw [String.toList_ofList, ← Option.not_isSome_iff_eq_none, not_iff_not, Option.isSome_iff_exists]
  constructor
  · intro h
    obtain ⟨rest, h⟩ := h
    exact ⟨rest, List.isPrefixOf?_eq_some_iff_append_eq.mp h⟩
  · intro h
    obtain ⟨rest, h⟩ := h
    exact ⟨rest, List.isPrefixOf?_eq_some_iff_append_eq.mpr h⟩

theorem experimentTag_injective : Function.Injective experimentTag := by
  intro x y h
  have hchars := congrArg String.toList h
  unfold experimentTag at hchars
  rw [String.toList_append, String.toList_append] at hchars
  exact String.toList_inj.mp (List.append_cancel_left hchars)

/-- An entry that switches an experiment off is longer than its name. -/
theorem ne_offEntry (name : String) : name ≠ offEntry name := by
  intro h
  have hlength := congrArg (·.toList.length) h
  simp only [offEntry, offStart, String.toList_append, List.length_append] at hlength
  have htwo : "no".toList.length = 2 := by decide
  omega

/-- **The tags are those of the listed names**, entries that switch off apart. -/
theorem mem_experimentTags_iff {value tag : String} :
    tag ∈ (experimentTags value).tags ↔
      ∃ name ∈ experimentEntries value, ¬ IsOff name ∧ tag = experimentTag name := by
  rw [experimentTags_eq, TagSet.mem_ofList, List.mem_map]
  unfold switchedOn experimentEntries
  constructor
  · intro h
    obtain ⟨entry, hentry, rfl⟩ := h
    obtain ⟨hmem, hon⟩ := List.mem_filter.mp hentry
    exact ⟨String.ofList entry, List.mem_map_of_mem hmem,
      after?_eq_none_iff.mp (Option.isNone_iff_eq_none.mp hon), rfl⟩
  · intro h
    obtain ⟨name, hname, hon, rfl⟩ := h
    obtain ⟨entry, hentry, rfl⟩ := List.mem_map.mp hname
    exact ⟨entry, List.mem_filter.mpr
      ⟨hentry, Option.isNone_iff_eq_none.mpr (after?_eq_none_iff.mpr hon)⟩, rfl⟩

theorem experimentTag_mem_iff {value name : String} (hon : ¬ IsOff name) :
    experimentTag name ∈ (experimentTags value).tags ↔ name ∈ experimentEntries value := by
  rw [mem_experimentTags_iff]
  constructor
  · intro h
    obtain ⟨other, hother, -, heq⟩ := h
    rwa [experimentTag_injective heq]
  · exact fun h => ⟨name, h, hon, rfl⟩

/-! ## 2. What stays on -/

/-- An experiment is listed, and no entry behind that place switches it off. -/
def StaysOn (entries : List String) (name : String) : Prop :=
  ∃ behind, name :: behind <:+ entries ∧ offEntry name ∉ behind

/-- An experiment is listed and then switched off, and not listed again behind that. -/
def SwitchedOff (entries : List String) (name : String) : Prop :=
  ∃ before behind, entries = before ++ offEntry name :: behind ∧ name ∈ before ∧ name ∉ behind

/-- What counts is what stands behind the last place of a name. -/
theorem staysOn_or_switchedOff {entries : List String} {name : String} (h : name ∈ entries) :
    StaysOn entries name ∨ SwitchedOff entries name := by
  obtain ⟨later, earlier, hsplit, hnew⟩ := List.eq_append_cons_of_mem (List.mem_reverse.mpr h)
  have hentries : entries = earlier.reverse ++ name :: later.reverse := by
    rw [← List.reverse_reverse entries, hsplit, List.reverse_append, List.reverse_cons,
      List.append_assoc, List.singleton_append]
  by_cases hoff : offEntry name ∈ later.reverse
  · obtain ⟨between, behind, hbetween⟩ := List.append_of_mem hoff
    have hlast : name ∉ behind := by
      intro hmem
      have hlater : name ∈ later.reverse := by
        rw [hbetween]
        exact List.mem_append_right _ (List.mem_cons_of_mem _ hmem)
      exact hnew (List.mem_reverse.mp hlater)
    exact Or.inr ⟨earlier.reverse ++ name :: between, behind, by simp [hentries, hbetween],
      by simp, hlast⟩
  · exact Or.inl ⟨later.reverse, ⟨earlier.reverse, hentries.symm⟩, hoff⟩

/-- What stays on is not switched off: the entry that switches it off would stand before the place
    from which it stays on, which would stand before that entry. -/
theorem not_switchedOff_of_staysOn {entries : List String} {name : String}
    (h : StaysOn entries name) : ¬ SwitchedOff entries name := by
  intro hoff
  obtain ⟨later, ⟨earlier, hearlier⟩, hstays⟩ := h
  obtain ⟨before, behind, hbefore, -, hlast⟩ := hoff
  rcases List.append_eq_append_iff.mp (hearlier.trans hbefore) with
    ⟨between, -, hbetween⟩ | ⟨between, -, hbetween⟩
  · cases between with
    | nil => exact ne_offEntry name (List.cons.inj hbetween).1
    | cons first rest =>
      rw [List.cons_append, List.cons.injEq] at hbetween
      rw [hbetween.2] at hstays
      exact hstays (by simp)
  · cases between with
    | nil => exact ne_offEntry name (List.cons.inj hbetween).1.symm
    | cons first rest =>
      rw [List.cons_append, List.cons.injEq] at hbetween
      rw [hbetween.2] at hlast
      exact hlast (by simp)

/-- **A listed experiment stays on or is switched off for good.** -/
theorem mem_entries_iff {entries : List String} {name : String} :
    name ∈ entries ↔ StaysOn entries name ∨ SwitchedOff entries name := by
  refine ⟨staysOn_or_switchedOff, fun h => ?_⟩
  rcases h with ⟨behind, hsuffix, -⟩ | ⟨before, behind, rfl, hmem, -⟩
  · exact hsuffix.subset List.mem_cons_self
  · exact List.mem_append_left _ hmem

/-! ## 3. What the tags tell -/

/-- **The tags tell which experiments stay on exactly where none is switched off for good.** They
    are the tags of the listed names, so an experiment has its tag if it is listed; it stays on as
    well unless it is switched off behind the last place where it is listed. -/
theorem tag_iff_staysOn (value : String) :
    (∀ tag, tag ∈ (experimentTags value).tags ↔
      ∃ name ∈ experimentEntries value, ¬ IsOff name ∧ tag = experimentTag name) ∧
    ∀ name, ¬ IsOff name →
      (experimentTag name ∈ (experimentTags value).tags ↔ name ∈ experimentEntries value) ∧
      ((experimentTag name ∈ (experimentTags value).tags ↔
          StaysOn (experimentEntries value) name) ↔
        ¬ SwitchedOff (experimentEntries value) name) := by
  refine ⟨fun tag => mem_experimentTags_iff, fun name hon => ⟨experimentTag_mem_iff hon, ?_⟩⟩
  rw [experimentTag_mem_iff hon, mem_entries_iff]
  constructor
  · intro h hoff
    exact not_switchedOff_of_staysOn (h.mp (Or.inr hoff)) hoff
  · intro hoff
    exact or_iff_left hoff

/-- An experiment that is switched off and on again, between blank entries and another one that is
    switched off without having been on. -/
theorem tag_iff_staysOn_repeated :
    let entries := experimentEntries " rangefunc ,norangefunc,,nosync, rangefunc"
    ¬ IsOff "rangefunc" ∧ entries = ["rangefunc", "norangefunc", "nosync", "rangefunc"] ∧
      StaysOn entries "rangefunc" ∧
      experimentTag "rangefunc" ∈
        (experimentTags " rangefunc ,norangefunc,,nosync, rangefunc").tags := by
  intro entries
  have hon : ¬ IsOff "rangefunc" := by decide
  have hentries : entries = ["rangefunc", "norangefunc", "nosync", "rangefunc"] := by decide +kernel
  have hstays : StaysOn entries "rangefunc" := by
    rw [hentries]
    exact ⟨[], ⟨["rangefunc", "norangefunc", "nosync"], rfl⟩, List.not_mem_nil⟩
  obtain ⟨-, htags⟩ := tag_iff_staysOn " rangefunc ,norangefunc,,nosync, rangefunc"
  have htells := (htags "rangefunc" hon).2
  exact ⟨hon, hentries, hstays,
    (htells.mpr (not_switchedOff_of_staysOn hstays)).mpr hstays⟩

/-- **The tag of an experiment that is switched off is kept.** -/
theorem tag_kept :
    ¬ IsOff "rangefunc" ∧
      experimentEntries "rangefunc,norangefunc" = ["rangefunc", "norangefunc"] ∧
      experimentTag "rangefunc" ∈ (experimentTags "rangefunc,norangefunc").tags ∧
      ¬ StaysOn (experimentEntries "rangefunc,norangefunc") "rangefunc" := by
  have hentries : experimentEntries "rangefunc,norangefunc" = ["rangefunc", "norangefunc"] := by
    decide +kernel
  have hoff : SwitchedOff (experimentEntries "rangefunc,norangefunc") "rangefunc" := by
    rw [hentries]
    exact ⟨["rangefunc"], [], rfl, List.mem_cons_self, List.not_mem_nil⟩
  exact ⟨by decide, hentries, by decide +kernel, fun h => not_switchedOff_of_staysOn h hoff⟩

end TestScout.BuildEnv

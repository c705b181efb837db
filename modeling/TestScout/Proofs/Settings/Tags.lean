import TestScout.Proofs.BuildEnv.Variables

/-!
# Tags by variable and by flag

A user gives build tags in a variable or by flag. The flag's text is read as a list: it is cut at
commas and spaces, the pieces are trimmed, and the empty ones are dropped. The variable's text is
read as a number or a flag if it writes one, and such a value is no list of tags; any other text is
cut at the commas, and the pieces are the tags as they stand. Main statements:

* `parse_render_iff`: which sets of tags are read back from their text;
* `same_listed_iff`: the two readings of a text give the same tags exactly if it is plain;
* `load_tagsVariable`: what the variable does to the settings;
* `tags_agree_iff`: when variable and flag give the same tags;
* `tags_differ_spacedText`: a text with spaces between tags, and one that writes a number.
-/

namespace TestScout

open Toml (Value)

/-! ## 1. Two readings of a list of tags -/

namespace TagSet

/-- **A set is read back from its text exactly if its tags stand for themselves.** -/
theorem parse_render_iff {set : TagSet} :
    parse set.render = set ↔ ∀ tag ∈ set.tags, IsEntry isSeparator tag.toList := by
  constructor
  · intro h tag htag
    rw [← h] at htag
    exact isEntry_of_mem_parse htag
  · exact parse_render

end TagSet

namespace Settings

/-- The pieces of a text between commas, as they stand. -/
def listed (text : String) : List String :=
  (text.toList.splitOn ',').map String.ofList

/-- A text that lists tags with nothing but commas between them. -/
def Plain (text : String) : Prop :=
  ∀ piece ∈ text.toList.splitOn ',', IsEntry TagSet.isSeparator piece

/-- A text is plain if the pieces between its commas stand for themselves. -/
theorem forall_mem_listed_iff {text : String} :
    (∀ tag ∈ (TagSet.ofList (listed text)).tags, IsEntry TagSet.isSeparator tag.toList) ↔
      Plain text := by
  unfold Plain listed
  simp only [TagSet.mem_ofList, List.forall_mem_map, String.toList_ofList]

/-- **The pieces of a plain text are the tags that it lists.** -/
theorem ofList_listed_of_plain {text : String} (h : Plain text) :
    TagSet.ofList (listed text) = TagSet.parse text := by
  have hentries : entriesOf TagSet.isSeparator text.toList = text.toList.splitOn ',' := by
    have hback : entriesOf TagSet.isSeparator ([','].intercalate (text.toList.splitOn ',')) =
        text.toList.splitOn ',' := entriesOf_intercalate rfl h
    rwa [List.intercalate_splitOn] at hback
  rw [TagSet.parse_eq, hentries]
  rfl

/-- **The two readings give the same tags exactly for a plain text.** -/
theorem same_listed_iff {text : String} :
    (TagSet.ofList (listed text)).same (TagSet.parse text) = true ↔ Plain text := by
  rw [TagSet.same_iff]
  constructor
  · -- whatever the other reading gives stands for itself
    intro h
    rw [← forall_mem_listed_iff]
    intro tag htag
    exact TagSet.isEntry_of_mem_parse ((h tag).mp htag)
  · intro h tag
    rw [ofList_listed_of_plain h]

/-! ## 2. The variable -/

/-- The variable that gives tags. -/
def tagsVariable : String := "GOTEST_UTIL_TAGS"

/-- The flag or number that a text writes. -/
def scalarOf (text : String) : Option Value :=
  (flagOf text.toList).or ((wholeOf text.toList).or ((Binary64.read? text.toList).map .real))

/-- A text that writes a flag or a number. -/
def IsScalar (text : String) : Prop :=
  (scalarOf text).isSome = true

instance (text : String) : Decidable (IsScalar text) :=
  inferInstanceAs (Decidable ((scalarOf text).isSome = true))

/-- A flag or a number is no list. -/
theorem textsOf_scalarOf {text : String} {value : Value} (h : scalarOf text = some value) :
    textsOf value = none := by
  unfold scalarOf at h
  rcases Option.or_eq_some_iff.mp h with hflag | ⟨-, h⟩
  · unfold flagOf at hflag
    split at hflag <;> cases hflag <;> rfl
  · rcases Option.or_eq_some_iff.mp h with hwhole | ⟨-, hreal⟩
    · unfold wholeOf at hwhole
      grind [textsOf]
    · obtain ⟨number, -, rfl⟩ := Option.map_eq_some_iff.mp hreal
      rfl

/-- **The tags of a variable are the pieces between commas**, but a flag or a number is no list. -/
theorem textsOf_valueOfVariable (text : String) :
    textsOf (valueOfVariable "tags" text) =
      if IsScalar text then none else some (listed text) := by
  have hvalue : valueOfVariable "tags" text = (scalarOf text).getD
      (.list ((text.toList.splitOn ',').map fun piece => .text (String.ofList piece))) := rfl
  rw [hvalue]
  cases hscalar : scalarOf text with
  | none =>
    rw [if_neg (show ¬ IsScalar text from fun h => by simp [IsScalar, hscalar] at h)]
    show List.mapM textOf _ = some (listed text)
    rw [List.mapM_map]
    exact List.mapM_pure
  | some value =>
    rw [if_pos (show IsScalar text from Option.isSome_of_eq_some hscalar)]
    exact textsOf_scalarOf hscalar

theorem keyOfVariable_tagsVariable : keyOfVariable tagsVariable = some "tags" := by
  decide +kernel

variable {tree : FileTree} {before behind : List (String × String)} {text : String}
  {settings : Settings}

theorem valuesOfVariables_append (first later : List (String × String)) :
    valuesOfVariables (first ++ later) = valuesOfVariables later ++ valuesOfVariables first := by
  unfold valuesOfVariables
  rw [List.filterMap_append, List.reverse_append]

theorem valuesOfVariables_tags (before behind : List (String × String)) (text : String) :
    valuesOfVariables (before ++ (tagsVariable, text) :: behind) =
      valuesOfVariables behind ++
        ("tags", valueOfVariable "tags" text) :: valuesOfVariables before := by
  have hone : valuesOfVariables ((tagsVariable, text) :: behind) =
      valuesOfVariables behind ++ [("tags", valueOfVariable "tags" text)] := by
    unfold valuesOfVariables
    rw [List.filterMap_cons, keyOfVariable_tagsVariable]
    exact List.reverse_cons
  rw [valuesOfVariables_append, hone, List.append_assoc]
  rfl

theorem not_mem_valuesOfVariables
    (hlast : ∀ other ∈ behind, keyOfVariable other.1 ≠ some "tags") :
    "tags" ∉ (valuesOfVariables behind).map (·.1) := by
  intro hmem
  obtain ⟨value, hvalue, hkey⟩ := List.mem_map.mp hmem
  unfold valuesOfVariables at hvalue
  rw [List.mem_reverse, List.mem_filterMap] at hvalue
  obtain ⟨other, hother, hsome⟩ := hvalue
  obtain ⟨key, hname, rfl⟩ := Option.map_eq_some_iff.mp hsome
  refine hlast other hother ?_
  rw [hname]
  exact congrArg some hkey

/-- Another value for the tags changes the tags of the settings, if it is a list of tags. -/
theorem ofValues_of_tags {value? given? : String → Option Value} {value : Value}
    (h : ofValues value? = some settings) (htags : given? "tags" = some value)
    (hother : ∀ key, key ≠ "tags" → given? key = value? key) :
    ofValues given? = (textsOf value).map fun tags => { settings with tags } := by
  unfold ofValues at h ⊢
  simp only [Option.bind_eq_bind, Option.bind_eq_some_iff, Option.pure_def, Option.some.injEq] at h
  obtain ⟨tags, -, goCommand, hcommand, goMinor, hminor, logLevel, hlevel, rfl⟩ := h
  have hgiven : setting textsOf standard.tags (some value) = textsOf value := rfl
  rw [htags, hgiven, hother _ (by decide), hother _ (by decide), hother _ (by decide), hcommand,
    hminor, hlevel]
  cases textsOf value with
  | none => rfl
  | some tags => rfl

theorem load_eq_ok_iff {bindings : List (String × String)} :
    load tree bindings = .ok settings ↔ ∃ ofFile, valuesOfFile tree = some ofFile ∧
      ofValues ((valuesOfVariables bindings ++ ofFile).lookup ·) = some settings := by
  unfold load
  cases valuesOfFile tree with
  | none => simp
  | some ofFile =>
    simp only [Option.some.injEq, exists_eq_left']
    split <;> simp_all

/-- **The settings under the variable are those without it, with the tags that it lists.** Where its
    text writes a flag or a number, there are no settings. -/
theorem load_tagsVariable (text : String)
    (hlast : ∀ other ∈ behind, keyOfVariable other.1 ≠ some "tags")
    (hload : load tree (before ++ behind) = .ok settings) :
    load tree (before ++ (tagsVariable, text) :: behind) =
      if IsScalar text then .error .notUnderstood
      else .ok { settings with tags := listed text } := by
  obtain ⟨ofFile, hfile, hvalues⟩ := load_eq_ok_iff.mp hload
  -- the last variable comes first, so the tags stand behind the values of `behind`
  rw [valuesOfVariables_append, List.append_assoc] at hvalues
  have hlookup : ∀ key, (valuesOfVariables behind ++ ("tags", valueOfVariable "tags" text) ::
      (valuesOfVariables before ++ ofFile)).lookup key =
        if key = "tags" then some (valueOfVariable "tags" text)
        else (valuesOfVariables behind ++ (valuesOfVariables before ++ ofFile)).lookup key :=
    lookup_append_cons _ (not_mem_valuesOfVariables hlast)
  have hgiven := ofValues_of_tags hvalues ((hlookup "tags").trans (if_pos rfl))
    fun key hkey => (hlookup key).trans (if_neg hkey)
  unfold load
  simp only [hfile, valuesOfVariables_tags, List.append_assoc, List.cons_append, hgiven,
    textsOf_valueOfVariable]
  by_cases hscalar : IsScalar text
  · rw [if_pos hscalar, if_pos hscalar]
    rfl
  · rw [if_neg hscalar, if_neg hscalar]
    rfl

end Settings

/-! ## 3. Both ways -/

namespace BuildEnv

open Settings

/-- The variable that gives tags gives nothing else of an environment. -/
theorem ofVariables_tagsVariable (host : Host) (before behind : List (String × String))
    (text : String) (settings : Settings) (tags : List String) :
    ofVariables host ((before ++ (tagsVariable, text) :: behind).lookup ·) { settings with tags } =
      { ofVariables host ((before ++ behind).lookup ·) settings with
        buildTags := TagSet.ofList tags } := by
  have hlookup : ∀ name, name ≠ tagsVariable →
      givenValue ((before ++ (tagsVariable, text) :: behind).lookup ·) name =
        givenValue ((before ++ behind).lookup ·) name := by
    intro name hname
    unfold givenValue
    simp only [lookup_append_cons_of_ne text hname]
  rw [ofVariables_eq, ofVariables_eq]
  unfold givenPath givenExperiments
  simp only [hlookup "GOOS" (by decide), hlookup "GOARCH" (by decide), hlookup "GOROOT" (by decide),
    hlookup "GOPATH" (by decide), hlookup "HOME" (by decide), hlookup "CGO_ENABLED" (by decide),
    hlookup "GOEXPERIMENT" (by decide)]

/-- Flags give the tags of their text. Without this text the same flags keep the tags that the
    environment has. -/
theorem apply_tags {tree : FileTree} {flags : BuildFlags} {text : String} {env byFlag : BuildEnv}
    (h : { flags with tags := some text }.apply tree env = .ok byFlag) :
    byFlag.buildTags = TagSet.parse text ∧
      ∀ tags, { flags with tags := none }.apply tree { env with buildTags := tags } =
        .ok { byFlag with buildTags := tags } := by
  unfold BuildFlags.apply at h ⊢
  cases hoverlay : flags.overlay with
  | none =>
    simp only [hoverlay] at h
    obtain rfl := Except.ok.inj h
    exact ⟨rfl, fun _ => rfl⟩
  | some argument =>
    simp only [hoverlay] at h
    split at h
    · cases h
    · rename_i hload
      obtain rfl := Except.ok.inj h
      exact ⟨rfl, fun tags => by simp only [hload]; rfl⟩
    · rename_i overlay hload
      obtain rfl := Except.ok.inj h
      exact ⟨rfl, fun tags => by simp only [hload]; rfl⟩

/-- **Variable and flag give the same tags exactly for a plain text that writes no flag and no
    number.** By flag every text gives tags that are read back. By the variable a flag or a number
    gives no environment, and any other text gives other tags, which are not read back, unless it is
    plain. No later variable sets the tags. -/
theorem tags_agree_iff {host : Host} {tree : FileTree} {before behind : List (String × String)}
    {settings : Settings} {flags : BuildFlags} {text : String} {byFlag : BuildEnv}
    (hlast : ∀ other ∈ behind, keyOfVariable other.1 ≠ some "tags")
    (hload : load tree (before ++ behind) = .ok settings)
    (hflags : { flags with tags := some text }.apply tree
      (ofVariables host ((before ++ behind).lookup ·) settings) = .ok byFlag) :
    let given := before ++ (tagsVariable, text) :: behind
    TagSet.parse byFlag.buildTags.render = byFlag.buildTags ∧
      (IsScalar text → load tree given = .error .notUnderstood) ∧
      (¬ IsScalar text → ∃ loaded byVariable, load tree given = .ok loaded ∧
        { flags with tags := none }.apply tree (ofVariables host (given.lookup ·) loaded) =
          .ok byVariable ∧
        (byVariable.buildTags.same byFlag.buildTags = true ↔ Plain text) ∧
        (TagSet.parse byVariable.buildTags.render = byVariable.buildTags ↔ Plain text) ∧
        (Plain text → byVariable = byFlag)) := by
  intro given
  have hgiven := load_tagsVariable text hlast hload
  obtain ⟨htags, hothers⟩ := apply_tags hflags
  refine ⟨?_, fun hscalar => ?_, fun hscalar => ?_⟩
  · rw [htags]
    exact TagSet.parse_render fun tag => TagSet.isEntry_of_mem_parse
  · rw [if_pos hscalar] at hgiven
    exact hgiven
  · rw [if_neg hscalar] at hgiven
    refine ⟨_, { byFlag with buildTags := TagSet.ofList (listed text) }, hgiven, ?_, ?_, ?_, ?_⟩
    · rw [ofVariables_tagsVariable]
      exact hothers (TagSet.ofList (listed text))
    · rw [htags]
      exact same_listed_iff
    · exact TagSet.parse_render_iff.trans forall_mem_listed_iff
    · intro hplain
      rw [ofList_listed_of_plain hplain, ← htags]

/-- A settings file with a tag and a release. -/
def tagsTree : FileTree :=
  ⟨[(["gotest-util.toml"], .file "tags = [\"unit\"]\ngo_minor = 21\n".toUTF8)], []⟩

/-- A tag that is given twice, over a settings file and an earlier variable for the same setting. -/
theorem tags_agree_iff_tagsTree :
    let before := [("gotest_util_tags", "old tags"), ("GOEXPERIMENT", "arenas")]
    let behind := [("GOTEST_UTIL_GO_MINOR", "22"), ("GOOS", "windows")]
    let flags : BuildFlags := ⟨none, none, some "arm64", none, some " "⟩
    let text := "slow,e2e,slow"
    (∀ other ∈ behind, keyOfVariable other.1 ≠ some "tags") ∧
      ∃ settings byFlag, load tagsTree (before ++ behind) = .ok settings ∧
        { flags with tags := some text }.apply tagsTree
          (ofVariables .built ((before ++ behind).lookup ·) settings) = .ok byFlag ∧
        let given := before ++ (tagsVariable, text) :: behind
        TagSet.parse byFlag.buildTags.render = byFlag.buildTags ∧
          (IsScalar text → load tagsTree given = .error .notUnderstood) ∧
          (¬ IsScalar text → ∃ loaded byVariable, load tagsTree given = .ok loaded ∧
            { flags with tags := none }.apply tagsTree
              (ofVariables .built (given.lookup ·) loaded) = .ok byVariable ∧
            (byVariable.buildTags.same byFlag.buildTags = true ↔ Plain text) ∧
            (TagSet.parse byVariable.buildTags.render = byVariable.buildTags ↔ Plain text) ∧
            (Plain text → byVariable = byFlag)) := by
  intro before behind flags text
  have hlast : ∀ other ∈ behind, keyOfVariable other.1 ≠ some "tags" := by decide +kernel
  let settings : Settings := { Settings.standard with tags := ["old tags"], goMinor := 22 }
  have hload : load tagsTree (before ++ behind) = .ok settings := by decide +kernel
  let base := ofVariables .built ((before ++ behind).lookup ·) settings
  let byFlag : BuildEnv := { flags with tags := some text }.applyPlain base
  have hflags : { flags with tags := some text }.apply tagsTree base = .ok byFlag := by
    decide +kernel
  exact ⟨hlast, settings, byFlag, hload, hflags, tags_agree_iff hlast hload hflags⟩

/-- **Spaces separate tags in the text of the flag and not in that of the variable**, and a text
    that writes a number gives a tag by flag and no settings as a variable. -/
theorem tags_differ_spacedText :
    let text := "unit slow, e2e"
    let given := [(tagsVariable, text)]
    let base := ofVariables .built (fun _ => none) .standard
    ∃ loaded byFlag, load ⟨[], []⟩ given = .ok loaded ∧
      { BuildFlags.none with tags := some text }.apply ⟨[], []⟩ base = .ok byFlag ∧
      (ofVariables .built (given.lookup ·) loaded).buildTags.tags = ["unit slow", " e2e"] ∧
      byFlag.buildTags.tags = ["unit", "slow", "e2e"] ∧
      (ofVariables .built (given.lookup ·) loaded).buildTags.same byFlag.buildTags = false ∧
      TagSet.parse (ofVariables .built (given.lookup ·) loaded).buildTags.render =
        byFlag.buildTags ∧
      load ⟨[], []⟩ [(tagsVariable, "1")] = .error .notUnderstood ∧
      (TagSet.parse "1").tags = ["1"] := by
  intro text given base
  let loaded : Settings := { Settings.standard with tags := ["unit slow", " e2e"] }
  let byFlag : BuildEnv := { BuildFlags.none with tags := some text }.applyPlain base
  have hload : load ⟨[], []⟩ given = .ok loaded := by decide +kernel
  refine ⟨loaded, byFlag, hload, rfl, ?_, ?_, ?_, ?_, ?_, ?_⟩ <;> decide +kernel

end BuildEnv

end TestScout

import TestScout.BuildFlags
import TestScout.Proofs.Lists
import TestScout.Proofs.TagSet.Reading
import TestScout.TestCommand

/-!
# Environments and the variables of a process

An environment is read from the variables of a process, changed by flags, and handed over to other
programs in variables again. Main statements:

* `ofVariables_onTarget`: what the variables of the platform decide;
* `target_eq_iff`: a platform chosen by flags is the platform chosen by variables, but for cgo,
  which the flags leave as the variables had it;
* `HandsOver`, `handsOver_command`: what a program finds that an environment is handed over to;
* `givesBack_of_flags`: it reads back the environment that the flags gave.
-/

namespace TestScout

/-! ## 1. Given values -/

/-- A value that counts as given: it is not blank. -/
def IsGiven (value : String) : Prop :=
  trim value.toList ≠ []

instance (value : String) : Decidable (IsGiven value) :=
  inferInstanceAs (Decidable (trim value.toList ≠ []))

theorem isGiven_of_mem {value : String} {c : Char} (hc : isBlank c = false)
    (hmem : c ∈ value.toList) : IsGiven value := by
  intro hblank
  rw [trim_eq_nil_iff.mp hblank c hmem] at hc
  cases hc

namespace BuildEnv

variable {host : Host} {value? inherited : String → Option String} {settings : Settings}

theorem givenValue_eq_some_iff {name value : String} :
    givenValue value? name = some value ↔ value? name = some value ∧ IsGiven value := by
  unfold givenValue IsGiven
  simp

/-- A blank value is read as what stands in for it, so that this may be blank too. -/
theorem getD_givenValue {name text fallback : String} (hvalue : value? name = some text)
    (htext : IsGiven text ∨ text = fallback) : (givenValue value? name).getD fallback = text := by
  by_cases hgiven : IsGiven text
  · rw [givenValue_eq_some_iff.mpr ⟨hvalue, hgiven⟩]
    rfl
  · have hnone : givenValue value? name = none := by
      refine Option.eq_none_iff_forall_ne_some.mpr fun other hother => ?_
      obtain ⟨hother, hblank⟩ := givenValue_eq_some_iff.mp hother
      rw [hvalue] at hother
      exact hgiven (Option.some.inj hother ▸ hblank)
    rw [hnone]
    exact (htext.resolve_left hgiven).symm

/-- What a flag or else a variable asks for is given, unless neither asks for anything. -/
theorem isGiven_asked {flag : Option String} {name fallback : String}
    (hflag : ∀ text, flag = some text → IsGiven text) :
    let asked := flag.getD ((givenValue value? name).getD fallback)
    IsGiven asked ∨ asked = fallback := by
  intro asked
  cases hasked : flag with
  | some text => exact Or.inl (by simpa [asked, hasked] using hflag text hasked)
  | none =>
    cases hgiven : givenValue value? name with
    | some text =>
      exact Or.inl (by simpa [asked, hasked, hgiven] using (givenValue_eq_some_iff.mp hgiven).2)
    | none => exact Or.inr (by simp [asked, hasked, hgiven])

/-! ## 2. Choosing a platform -/

/-- The variables of a process in which a platform is chosen. -/
def onTarget (value? : String → Option String) (goos goarch name : String) : Option String :=
  if name = "GOOS" then some goos
  else if name = "GOARCH" then some goarch
  else value? name

/-- The flags that choose a platform and nothing else. -/
def targetFlags (goos goarch : String) : BuildFlags :=
  { BuildFlags.none with goos := some goos, goarch := some goarch }

/-- The variables of a process decide on cgo. -/
def DecidesCgo (value? : String → Option String) : Prop :=
  value? "CGO_ENABLED" = some "0" ∨ value? "CGO_ENABLED" = some "1"

theorem decidesCgo_iff : DecidesCgo value? ↔
    givenValue value? "CGO_ENABLED" = some "0" ∨ givenValue value? "CGO_ENABLED" = some "1" := by
  have hzero : IsGiven "0" := by decide
  have hone : IsGiven "1" := by decide
  unfold DecidesCgo
  rw [givenValue_eq_some_iff, givenValue_eq_some_iff, and_iff_left hzero, and_iff_left hone]

/-- Where nothing else decides, cgo is on for the host only. -/
theorem cgoOf_of_undecided {value : Option String} (h : ¬ (value = some "0" ∨ value = some "1"))
    (native : Bool) : cgoOf value native = native := by
  unfold cgoOf
  split
  · exact absurd (Or.inr rfl) h
  · exact absurd (Or.inl rfl) h
  · rfl

/-- Whether the platform is the host's matters to cgo only where nothing else decides. -/
theorem cgoOf_eq_iff {value : Option String} {native other : Bool} :
    cgoOf value native = cgoOf value other ↔
      (value = some "0" ∨ value = some "1") ∨ native = other := by
  by_cases h : value = some "0" ∨ value = some "1"
  · refine ⟨fun _ => Or.inl h, fun _ => ?_⟩
    rcases h with rfl | rfl <;> rfl
  · rw [cgoOf_of_undecided h, cgoOf_of_undecided h, or_iff_right h]

/-- **The variables of the platform decide on the platform, and on cgo where nothing else does.** -/
theorem ofVariables_onTarget {goos goarch : String} (hgoos : IsGiven goos)
    (hgoarch : IsGiven goarch) :
    ofVariables host (onTarget value? goos goarch) settings =
      { ofVariables host value? settings with
        goos := goos
        goarch := goarch
        cgo := cgoOf (givenValue value? "CGO_ENABLED") (isNative host goos goarch) } := by
  have hsystem : givenValue (onTarget value? goos goarch) "GOOS" = some goos :=
    givenValue_eq_some_iff.mpr ⟨rfl, hgoos⟩
  have hmachine : givenValue (onTarget value? goos goarch) "GOARCH" = some goarch :=
    givenValue_eq_some_iff.mpr ⟨rfl, hgoarch⟩
  have hother : ∀ name, name ≠ "GOOS" → name ≠ "GOARCH" →
      givenValue (onTarget value? goos goarch) name = givenValue value? name := by
    intro name hsystem hmachine
    unfold givenValue onTarget
    rw [if_neg hsystem, if_neg hmachine]
  simp only [ofVariables, hsystem, hmachine, Option.getD_some, hother "CGO_ENABLED" (by decide)
    (by decide), hother "GOROOT" (by decide) (by decide), hother "GOPATH" (by decide) (by decide),
    hother "HOME" (by decide) (by decide), hother "GOEXPERIMENT" (by decide) (by decide)]

/-- **A platform chosen by flags is the platform chosen by variables, but for cgo.** With flags cgo
    stays what it was for the platform before, so the two environments are one exactly if the
    variables decide on cgo, or if both platforms are the host's or neither is. -/
theorem target_eq_iff (host : Host) (tree : FileTree) (value? : String → Option String)
    (settings : Settings) {goos goarch : String} (hgoos : IsGiven goos) (hgoarch : IsGiven goarch) :
    let base := ofVariables host value? settings
    let chosen := ofVariables host (onTarget value? goos goarch) settings
    ∃ env, (targetFlags goos goarch).apply tree base = .ok env ∧
      env = { chosen with cgo := base.cgo } ∧
      (¬ DecidesCgo value? → env.cgo = isNative host base.goos base.goarch ∧
        chosen.cgo = isNative host goos goarch) ∧
      (env = chosen ↔
        DecidesCgo value? ∨ isNative host base.goos base.goarch = isNative host goos goarch) := by
  intro base chosen
  have hchosen : chosen = { base with
      goos := goos
      goarch := goarch
      cgo := cgoOf (givenValue value? "CGO_ENABLED") (isNative host goos goarch) } :=
    ofVariables_onTarget hgoos hgoarch
  have hbase : base.cgo =
      cgoOf (givenValue value? "CGO_ENABLED") (isNative host base.goos base.goarch) := rfl
  have hcgo : base.cgo = chosen.cgo ↔
      DecidesCgo value? ∨ isNative host base.goos base.goarch = isNative host goos goarch := by
    rw [decidesCgo_iff, hbase, hchosen]
    exact cgoOf_eq_iff
  refine ⟨{ chosen with cgo := base.cgo }, ?_, rfl, fun hundecided => ?_, ?_⟩
  · rw [hchosen]
    rfl
  · rw [decidesCgo_iff] at hundecided
    rw [hchosen]
    exact ⟨hbase.trans (cgoOf_of_undecided hundecided _), cgoOf_of_undecided hundecided _⟩
  · rw [← hcgo]
    constructor
    · intro h
      exact congrArg (·.cgo) h
    · intro h
      rw [h]

/-- A platform that is chosen by flags for a process that builds for a third one. -/
theorem target_eq_iff_crossSource :
    let value? : String → Option String := fun name => if name = "GOOS" then some "darwin" else none
    let base := ofVariables .built value? .standard
    let chosen := ofVariables .built (onTarget value? "windows" "arm64") .standard
    IsGiven "windows" ∧ IsGiven "arm64" ∧
      ∃ env, (targetFlags "windows" "arm64").apply ⟨[], []⟩ base = .ok env ∧
        env = { chosen with cgo := base.cgo } ∧
        (¬ DecidesCgo value? → env.cgo = isNative .built base.goos base.goarch ∧
          chosen.cgo = isNative .built "windows" "arm64") ∧
        (env = chosen ↔
          DecidesCgo value? ∨
            isNative .built base.goos base.goarch = isNative .built "windows" "arm64") := by
  intro value? base chosen
  have hgoos : IsGiven "windows" := by decide
  have hgoarch : IsGiven "arm64" := by decide
  exact ⟨hgoos, hgoarch, target_eq_iff .built ⟨[], []⟩ value? .standard hgoos hgoarch⟩

/-- **A flag for another system leaves cgo on**, which the variable would turn off. -/
theorem target_keeps_cgo :
    (targetFlags "windows" "amd64").apply ⟨[], []⟩ (ofVariables .built (fun _ => none) .standard) ≠
      .ok (ofVariables .built (onTarget (fun _ => none) "windows" "amd64") .standard) := by
  decide +kernel

/-! ## 3. Handing an environment over -/

/-- What a program finds in its variables when an environment is handed over to it: the parts of the
    environment that are not empty, and the inherited values in place of the others. -/
structure HandsOver (env : BuildEnv) (inherited value? : String → Option String) : Prop where
  goos : value? "GOOS" = some env.goos
  goarch : value? "GOARCH" = some env.goarch
  cgo : value? "CGO_ENABLED" = some (if env.cgo then "1" else "0")
  goroot : value? "GOROOT" = if env.goroot = "" then inherited "GOROOT" else some env.goroot
  gopath : value? "GOPATH" = if env.gopath = "" then inherited "GOPATH" else some env.gopath
  home : value? "HOME" = inherited "HOME"
  flags : value? "GOFLAGS" = if env.buildTags.isEmpty then inherited "GOFLAGS"
    else some ("-tags=" ++ env.buildTags.render)
  experiments : value? "GOEXPERIMENT" = if env.toolTags.isEmpty then inherited "GOEXPERIMENT"
    else some (",".intercalate (env.toolTags.tags.map TestCommand.experimentOf))

/-- **The command that runs tests hands its environment over.** -/
theorem handsOver_command (program : String) (options : TestOptions) (env : BuildEnv) (dir : Path)
    (bindings : List (String × String)) :
    HandsOver env (bindings.lookup ·)
      ((TestCommand.of program options env dir).valueOf bindings) := by
  have hcons : ∀ (name other value : String) (rest : List (String × String)),
      ((other, value) :: rest).lookup name =
        if name = other then some value else rest.lookup name := by
    intro name other value rest
    by_cases hname : name = other
    · simp [hname]
    · simp [List.lookup_cons, hname, beq_eq_false_iff_ne.mpr hname]
  have hif : ∀ (p : Prop) [Decidable p] (name other value : String),
      (if p then [] else [(other, value)] : List (String × String)).lookup name =
        if p then none else if name = other then some value else none := by
    intro p _ name other value
    split
    · rfl
    · exact hcons name other value []
  have hor : ∀ (p : Prop) [Decidable p] (text : String) (other : Option String),
      (if p then none else some text).or other = if p then other else some text := by
    intro p _ text other
    split <;> rfl
  constructor <;>
    simp [TestCommand.valueOf, TestCommand.allVariables, TestCommand.of, TestCommand.variablesFor,
      List.lookup_append, hcons, hif, hor]

/-- What a program reads that a value may be handed over to. -/
theorem givenValue_of_fallback {name text : String} {p : Prop} [Decidable p]
    (hvalue : value? name = if p then inherited name else some text)
    (htext : ¬ p → IsGiven text) :
    givenValue value? name = if p then givenValue inherited name else some text := by
  split
  · rename_i hp
    rw [if_pos hp] at hvalue
    unfold givenValue
    rw [hvalue]
  · rename_i hp
    rw [if_neg hp] at hvalue
    exact givenValue_eq_some_iff.mpr ⟨hvalue, htext hp⟩

/-- The directories of sources that the variables name. -/
def givenPath (value? : String → Option String) : Option String :=
  (givenValue value? "GOPATH").or
    ((givenValue value? "HOME").map fun home => (Path.child ⟨home⟩ "go").text)

theorem isGiven_of_givenPath {text : String} (h : givenPath value? = some text) : IsGiven text := by
  unfold givenPath at h
  rcases Option.or_eq_some_iff.mp h with h | ⟨-, h⟩
  · exact (givenValue_eq_some_iff.mp h).2
  · obtain ⟨home, -, rfl⟩ := Option.map_eq_some_iff.mp h
    refine isGiven_of_mem (c := 'g') (by decide) ?_
    unfold Path.child Path.join
    split
    · simp
    · split <;> simp

theorem isGiven_getD {value : Option String} (h : ∀ text, value = some text → IsGiven text)
    (hne : value.getD "" ≠ "") : IsGiven (value.getD "") := by
  cases value with
  | none => exact absurd rfl hne
  | some text => exact h text rfl

/-- The tags of the experiments that the variables name. -/
def givenExperiments (value? : String → Option String) : TagSet :=
  ((givenValue value? "GOEXPERIMENT").map experimentTags).getD TagSet.empty

theorem ofVariables_eq (host : Host) (value? : String → Option String) (settings : Settings) :
    ofVariables host value? settings =
      { goos := (givenValue value? "GOOS").getD host.os
        goarch := (givenValue value? "GOARCH").getD host.arch
        goroot := (givenValue value? "GOROOT").getD ""
        gopath := (givenPath value?).getD ""
        cgo := cgoOf (givenValue value? "CGO_ENABLED")
          (isNative host ((givenValue value? "GOOS").getD host.os)
            ((givenValue value? "GOARCH").getD host.arch))
        buildTags := TagSet.ofList settings.tags
        toolTags := givenExperiments value?
        goMinor := settings.goMinor
        compiler := "gc"
        dir := none
        overlay := none } := rfl

theorem mem_givenExperiments {tag : String} (h : tag ∈ (givenExperiments value?).tags) :
    ∃ name, IsExperiment name ∧ tag = experimentTag name := by
  unfold givenExperiments at h
  cases hgiven : givenValue value? "GOEXPERIMENT" with
  | none =>
    rw [hgiven] at h
    exact absurd h List.not_mem_nil
  | some value =>
    rw [hgiven] at h
    exact mem_experimentTags h

theorem experimentOf_experimentTag (name : String) :
    TestCommand.experimentOf (experimentTag name) = name := by
  have hcut : after? experimentStart.toList (experimentTag name).toList = some name.toList := by
    unfold after? experimentTag
    rw [String.toList_append]
    exact List.isPrefixOf?_eq_some_iff_append_eq.mpr rfl
  unfold TestCommand.experimentOf
  rw [hcut]
  exact String.ofList_toList

/-- **Tags of experiments are read back from the names under which they are handed over.** -/
theorem experimentTags_experimentOf {set : TagSet}
    (h : ∀ tag ∈ set.tags, ∃ name, IsExperiment name ∧ tag = experimentTag name) :
    experimentTags (",".intercalate (set.tags.map TestCommand.experimentOf)) = set := by
  have hnames : ∀ name ∈ set.tags.map TestCommand.experimentOf, IsExperiment name := by
    intro name hname
    obtain ⟨tag, htag, rfl⟩ := List.mem_map.mp hname
    obtain ⟨name, hexperiment, rfl⟩ := h tag htag
    rwa [experimentOf_experimentTag]
  have htags : (set.tags.map TestCommand.experimentOf).map experimentTag = set.tags := by
    rw [List.map_map, List.map_congr_left (g := id) fun tag htag => ?_, List.map_id]
    obtain ⟨name, -, rfl⟩ := h tag htag
    exact congrArg experimentTag (experimentOf_experimentTag name)
  rw [experimentTags_intercalate hnames, htags, TagSet.ofList_tags]

theorem isGiven_experiments {set : TagSet} (hne : ¬ set.isEmpty = true)
    (h : ∀ tag ∈ set.tags, ∃ name, IsExperiment name ∧ tag = experimentTag name) :
    IsGiven (",".intercalate (set.tags.map TestCommand.experimentOf)) := by
  unfold TagSet.isEmpty at hne
  cases htags : set.tags with
  | nil => simp [htags] at hne
  | cons tag rest =>
    obtain ⟨name, hexperiment, rfl⟩ := h tag (htags ▸ List.mem_cons_self)
    obtain ⟨c, hc, hblank⟩ := hexperiment.isEntry.exists_not_blank
    refine isGiven_of_mem hblank ?_
    rw [List.map_cons, experimentOf_experimentTag, String.toList_intercalate, List.map_cons]
    cases rest.map TestCommand.experimentOf with
    | nil => simpa using hc
    | cons next more =>
      rw [List.map_cons, List.intercalate_cons_cons, List.append_assoc]
      exact List.mem_append_left _ hc

/-- A text that is handed over where it is not empty, and inherited where it is. -/
theorem getD_of_fallback {value inherited : Option String} {text : String}
    (hvalue : value = if text = "" then inherited else some text)
    (htext : text = inherited.getD "") : value.getD "" = text := by
  rw [hvalue]
  split
  · exact htext.symm
  · rfl

namespace HandsOver

variable {env : BuildEnv} (h : HandsOver env inherited value?)

include h

theorem cgoOf_eq (native : Bool) : cgoOf (givenValue value? "CGO_ENABLED") native = env.cgo := by
  cases hon : env.cgo with
  | false =>
    have hzero : value? "CGO_ENABLED" = some "0" := by rw [h.cgo, hon]; rfl
    rw [givenValue_eq_some_iff.mpr ⟨hzero, by decide⟩]
    rfl
  | true =>
    have hone : value? "CGO_ENABLED" = some "1" := by rw [h.cgo, hon]; rfl
    rw [givenValue_eq_some_iff.mpr ⟨hone, by decide⟩]
    rfl

theorem goroot_eq (htext : env.goroot = (givenValue inherited "GOROOT").getD "") :
    (givenValue value? "GOROOT").getD "" = env.goroot := by
  refine getD_of_fallback (givenValue_of_fallback h.goroot fun hne => ?_) htext
  rw [htext] at hne ⊢
  exact isGiven_getD (fun text hsome => (givenValue_eq_some_iff.mp hsome).2) hne

/-- The home directory counts only where no directories are named, in both. -/
theorem gopath_eq (htext : env.gopath = (givenPath inherited).getD "") :
    (givenPath value?).getD "" = env.gopath := by
  have hhome : givenValue value? "HOME" = givenValue inherited "HOME" := by
    unfold givenValue
    rw [h.home]
  have hpath : givenPath value? = if env.gopath = "" then givenPath inherited
      else some env.gopath := by
    unfold givenPath
    rw [hhome, givenValue_of_fallback h.gopath fun hne => ?_]
    · split <;> rfl
    · rw [htext] at hne ⊢
      exact isGiven_getD (fun text => isGiven_of_givenPath) hne
  exact getD_of_fallback hpath htext

theorem experiments_eq (htags : env.toolTags = givenExperiments inherited) :
    givenExperiments value? = env.toolTags := by
  have hnames : ∀ tag ∈ env.toolTags.tags,
      ∃ name, IsExperiment name ∧ tag = experimentTag name := by
    intro tag htag
    rw [htags] at htag
    exact mem_givenExperiments htag
  unfold givenExperiments
  rw [givenValue_of_fallback h.experiments fun hne => isGiven_experiments hne hnames]
  split
  · exact htags.symm
  · exact experimentTags_experimentOf hnames

end HandsOver

/-- **A program to which an environment is handed over reads it back**, the tags of the user apart:
    these are not read from variables. The environment comes from the variables that the program
    inherits and from flags that name no blank platform. -/
theorem ofVariables_of_handsOver {flags : BuildFlags} {settings : Settings} {env : BuildEnv}
    (henv : env = flags.applyPlain (ofVariables host inherited settings))
    (hgoos : ∀ goos, flags.goos = some goos → IsGiven goos)
    (hgoarch : ∀ goarch, flags.goarch = some goarch → IsGiven goarch)
    (h : HandsOver env inherited value?) :
    ofVariables host value? settings =
      { env with buildTags := (ofVariables host inherited settings).buildTags } := by
  have hsystem : (givenValue value? "GOOS").getD host.os = env.goos := by
    refine getD_givenValue h.goos ?_
    rw [henv]
    exact isGiven_asked hgoos
  have hmachine : (givenValue value? "GOARCH").getD host.arch = env.goarch := by
    refine getD_givenValue h.goarch ?_
    rw [henv]
    exact isGiven_asked hgoarch
  have hroot := h.goroot_eq (by rw [henv]; rfl)
  have hpath := h.gopath_eq (by rw [henv]; rfl)
  have hexperiments := h.experiments_eq (by rw [henv]; rfl)
  rw [ofVariables_eq host value?, hsystem, hmachine, h.cgoOf_eq, hroot, hpath, hexperiments, henv]
  rfl

/-- The variables give an environment back, the tags of the user apart. -/
structure GivesBack (host : Host) (value? : String → Option String) (settings : Settings)
    (env : BuildEnv) : Prop where
  goos : (ofVariables host value? settings).goos = env.goos
  goarch : (ofVariables host value? settings).goarch = env.goarch
  goroot : (ofVariables host value? settings).goroot = env.goroot
  gopath : (ofVariables host value? settings).gopath = env.gopath
  cgo : (ofVariables host value? settings).cgo = env.cgo
  toolTags : (ofVariables host value? settings).toolTags.tags = env.toolTags.tags

/-- **Handing an environment over loses nothing.** The program that runs tests finds the environment
    of the command in its variables, inherited ones included, and the tags that the user asked for
    by flag in one of them, from which they are read back in the same order. -/
theorem givesBack_of_flags (host : Host) (tree : FileTree) (bindings : List (String × String))
    (settings : Settings) (program : String) (options : TestOptions) (dir : Path)
    {flags : BuildFlags} (hoverlay : flags.overlay = none)
    (hgoos : ∀ goos, flags.goos = some goos → IsGiven goos)
    (hgoarch : ∀ goarch, flags.goarch = some goarch → IsGiven goarch) :
    ∃ env, flags.apply tree (ofVariables host (bindings.lookup ·) settings) = .ok env ∧
      GivesBack host ((TestCommand.of program options env dir).valueOf bindings) settings env ∧
      ∀ tags, flags.tags = some tags → (TagSet.parse tags).isEmpty = false →
        ∃ text, (TestCommand.of program options env dir).valueOf bindings "GOFLAGS" =
          some ("-tags=" ++ text) ∧ TagSet.parse text = env.buildTags := by
  let env := flags.applyPlain (ofVariables host (bindings.lookup ·) settings)
  have hhands := handsOver_command program options env dir bindings
  have hback := ofVariables_of_handsOver rfl hgoos hgoarch hhands
  have hbuild : ∀ tags, flags.tags = some tags → env.buildTags = TagSet.parse tags := by
    intro tags htags
    simp only [env, BuildFlags.applyPlain, htags, Option.map_some, Option.getD_some]
  refine ⟨env, ?_, ?_, fun tags htags hne => ⟨env.buildTags.render, ?_, ?_⟩⟩
  · unfold BuildFlags.apply
    rw [hoverlay]
  · constructor <;> rw [hback]
  · rw [hhands.flags, if_neg]
    rw [hbuild tags htags, hne]
    decide
  · rw [hbuild tags htags]
    exact TagSet.parse_render fun tag => TagSet.isEntry_of_mem_parse

/-- Flags for a third system over variables that are blank in part. -/
theorem givesBack_of_flags_blankSource :
    let bindings := [("GOROOT", "  "), ("HOME", "/home/u"), ("GOFLAGS", "-mod=vendor"),
      ("GOEXPERIMENT", " rangefunc,nosynctest,, arenas "), ("CGO_ENABLED", "yes")]
    let flags : BuildFlags := ⟨some "slow, integration slow", some "js", none, none, none⟩
    let options : TestOptions := ⟨true, false, false, none, none, []⟩
    flags.overlay = none ∧ (∀ goos, flags.goos = some goos → IsGiven goos) ∧
      (∀ goarch, flags.goarch = some goarch → IsGiven goarch) ∧
      ∃ env, flags.apply ⟨[], []⟩ (ofVariables .built (bindings.lookup ·) .standard) = .ok env ∧
        GivesBack .built ((TestCommand.of "go" options env ⟨"/p"⟩).valueOf bindings) .standard env ∧
        ∀ tags, flags.tags = some tags → (TagSet.parse tags).isEmpty = false →
          ∃ text, (TestCommand.of "go" options env ⟨"/p"⟩).valueOf bindings "GOFLAGS" =
            some ("-tags=" ++ text) ∧ TagSet.parse text = env.buildTags := by
  intro bindings flags options
  have hgoos : ∀ goos, flags.goos = some goos → IsGiven goos := by
    intro goos hsome
    obtain rfl := Option.some.inj hsome
    decide
  have hgoarch : ∀ goarch, flags.goarch = some goarch → IsGiven goarch := by
    intro goarch hsome
    cases hsome
  exact ⟨rfl, hgoos, hgoarch,
    givesBack_of_flags .built ⟨[], []⟩ bindings .standard "go" options ⟨"/p"⟩ rfl hgoos hgoarch⟩

end BuildEnv

end TestScout

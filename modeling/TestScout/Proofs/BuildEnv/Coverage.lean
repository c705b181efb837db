import Mathlib.Data.List.Basic
import TestScout.Proofs.BuildEnv.Resolution
import TestScout.Proofs.Constraint.Describing

/-!
# Which files the search for an environment does justice to

The search tries few platforms: the present one, those that the file mentions, and one other system
and one other architecture. Whether they stand for all the rest depends on what is mentioned. Main
statements:

* `complete_iff_covers`: files with given tags are found an environment whenever there is one
  exactly if the platforms that are tried stand for all of them and every switch of a tag has its
  effect;
* `covers_of_not_unix`: that is so for files that do not mention `unix` and leave one of the usual
  systems and one of the usual architectures unmentioned;
* `not_complete_host`: it is not so for a file with the constraint `!unix`.
-/

namespace TestScout.BuildEnv

/-! ## 1. Environments that are asked for, and those that are tried -/

/-- The environments that differ from the one at hand in platform, cgo and the tags that a file
    mentions and that may be switched. -/
structure IsVariant (env : BuildEnv) (mentioned : List String) (variant : BuildEnv) : Prop where
  goos : variant.goos ∈ Platform.knownOS
  goarch : variant.goarch ∈ Platform.knownArch
  goroot : variant.goroot = env.goroot
  gopath : variant.gopath = env.gopath
  compiler : variant.compiler = env.compiler
  goMinor : variant.goMinor = env.goMinor
  dir : variant.dir = env.dir
  overlay : variant.overlay = env.overlay
  buildTags : ∀ tag, ¬ (tag ∈ mentioned ∧ isFreeTag tag = true) →
    (tag ∈ variant.buildTags.tags ↔ tag ∈ env.buildTags.tags)
  toolTags : ∀ tag, ¬ (tag ∈ mentioned ∧ isFreeTag tag = true) →
    (tag ∈ variant.toolTags.tags ↔ tag ∈ env.toolTags.tags)

/-- What the environments that are looked at for a file have in common. -/
structure IsTried (env : BuildEnv) (mentioned : List String) (tried : BuildEnv) : Prop where
  goos : tried.goos ∈ env.systems mentioned
  goarch : tried.goarch ∈ env.machines mentioned
  /-- Only tags that are mentioned and may be switched come or go. -/
  unswitched : ∀ tag, ¬ (tag ∈ mentioned ∧ isFreeTag tag = true) →
    tried.holdsAnyway tag = env.holdsAnyway tag
  /-- A tag that holds whatever its switch says holds. -/
  fixed : ∀ tag, env.holdsFixed tag = true → tried.holdsAnyway tag = true

/-- **Files that mention given tags are found an environment whenever there is one.** -/
def Complete (env : BuildEnv) (mentioned : List String) : Prop :=
  ∀ name header, mentionedTags name header = mentioned → env.fitting name header = none →
    ∀ variant, env.IsVariant mentioned variant → variant.matchesFile name header = false

/-- Whether what is tried for files that mention given tags stands for everything else. -/
structure Covers (env : BuildEnv) (mentioned : List String) : Prop where
  /-- For every system one is tried that makes the same of the mentioned tags hold. -/
  system : ∀ system ∈ Platform.knownOS, ∃ tried ∈ env.systems mentioned, ∀ tag ∈ mentioned,
    env.holdsAnyway tag = false → systemHolds tried tag = systemHolds system tag
  /-- For every architecture one is tried that makes the same of the mentioned tags hold. -/
  machine : ∀ machine ∈ Platform.knownArch, ∃ tried ∈ env.machines mentioned, ∀ tag ∈ mentioned,
    env.holdsAnyway tag = false → (tag = tried ↔ tag = machine)
  /-- No mentioned tag is in the set in which it cannot be switched. -/
  switch : ∀ tag ∈ mentioned, isFreeTag tag = true → tag ≠ env.compiler →
    (env.awayTags tag).contains tag = false

/-- The systems that are tried are known. -/
theorem systems_known {env : BuildEnv} {mentioned : List String} {system : String}
    (hos : env.goos ∈ Platform.knownOS) (h : system ∈ env.systems mentioned) :
    system ∈ Platform.knownOS := by
  simp only [systems, List.mem_eraseDups, List.mem_append, List.mem_cons, List.mem_filter,
    Option.mem_toList] at h
  rcases h with ((rfl | ⟨-, hknown⟩) | hunix) | hfresh
  · exact hos
  · exact Platform.isOS_iff.mp hknown
  · split at hunix
    · obtain rfl := List.mem_singleton.mp hunix
      decide
    · exact absurd hunix List.not_mem_nil
  · have hsub : otherSystems ⊆ Platform.knownOS := by decide
    exact hsub (List.mem_of_find?_eq_some hfresh)

/-- The architectures that are tried are known. -/
theorem machines_known {env : BuildEnv} {mentioned : List String} {machine : String}
    (harch : env.goarch ∈ Platform.knownArch) (h : machine ∈ env.machines mentioned) :
    machine ∈ Platform.knownArch := by
  simp only [machines, List.mem_eraseDups, List.mem_append, List.mem_cons, List.mem_filter,
    Option.mem_toList] at h
  rcases h with (rfl | ⟨-, hknown⟩) | hfresh
  · exact harch
  · exact Platform.isArch_iff.mp hknown
  · have hsub : otherMachines ⊆ Platform.knownArch := by decide
    exact hsub (List.mem_of_find?_eq_some hfresh)

/-- The present platform is tried. -/
theorem goos_mem_systems (env : BuildEnv) (mentioned : List String) :
    env.goos ∈ env.systems mentioned := by
  simp [systems]

theorem goarch_mem_machines (env : BuildEnv) (mentioned : List String) :
    env.goarch ∈ env.machines mentioned := by
  simp [machines]

/-- The switches of an environment that is tried, by tag. -/
theorem holdsAnyway_tried (env : BuildEnv) (system machine : String) (cgo : Bool)
    {switches : List (String × Bool)} (hnodup : (switches.map (·.1)).Nodup) (tag : String) :
    ((env.onPlatform system machine cgo).switchTags switches).holdsAnyway tag =
      ((switches.lookup tag).getD ((env.homeTags tag).contains tag) || env.holdsFixed tag) :=
  holdsAnyway_switchTags (env.onPlatform system machine cgo) switches tag hnodup

theorem isTried_self (env : BuildEnv) (mentioned : List String) : env.IsTried mentioned env where
  goos := goos_mem_systems env mentioned
  goarch := goarch_mem_machines env mentioned
  unswitched _ _ := rfl
  fixed tag h := by rw [holdsAnyway_eq, h, Bool.or_true]

/-- **What is tried.** -/
theorem isTried_of_mem_candidates {env found : BuildEnv} {name : String} {header : Header}
    (h : found ∈ env.candidates name header) :
    env.IsTried (mentionedTags name header) found := by
  obtain ⟨system, hsystem, machine, hmachine, cgo, -, switches, hswitches, rfl⟩ :=
    mem_candidates.mp h
  have hnodup : (switches.map (·.1)).Nodup := hswitches ▸ nodup_switchedTags name header
  exact {
    goos := by rw [goos_switchTags]; exact hsystem
    goarch := by rw [goarch_switchTags]; exact hmachine
    unswitched := fun tag htag => by
      have hnone : switches.lookup tag = none := by
        rw [List.lookup_eq_none_iff]
        intro switch hswitch
        have hne : tag ≠ switch.1 := by
          rintro rfl
          have hmem : switch.1 ∈ switches.map (·.1) := List.mem_map_of_mem hswitch
          rw [hswitches] at hmem
          exact htag (mem_of_mem_switchedTags hmem)
        simpa using hne
      rw [holdsAnyway_tried env system machine cgo hnodup, hnone, Option.getD_none,
        ← holdsAnyway_eq]
    fixed := fun tag htag => by
      rw [holdsAnyway_tried env system machine cgo hnodup, htag, Bool.or_true] }

theorem isTried_of_fitting {env found : BuildEnv} {name : String} {header : Header}
    (h : env.fitting name header = some found) :
    env.IsTried (mentionedTags name header) found := by
  rcases fitting_eq_some h with ⟨-, rfl⟩ | ⟨-, hfound⟩
  · exact isTried_self found _
  · exact isTried_of_mem_candidates hfound

/-! ## 2. Where the platforms that are tried stand for the rest -/

/-- No more tags may be switched than are switched. -/
def FewFreeTags (mentioned : List String) : Prop :=
  (mentioned.filter isFreeTag).length ≤ freeTagLimit

theorem switchedTags_eq {name : String} {header : Header}
    (hfew : FewFreeTags (mentionedTags name header)) :
    switchedTags name header = (mentionedTags name header).filter isFreeTag :=
  List.take_of_length_le hfew

/-- Outside the tags that may be switched the same tags hold anyway. -/
theorem IsVariant.holdsAnyway_eq {env variant : BuildEnv} {mentioned : List String} {tag : String}
    (h : env.IsVariant mentioned variant) (htag : ¬ (tag ∈ mentioned ∧ isFreeTag tag = true)) :
    variant.holdsAnyway tag = env.holdsAnyway tag := by
  have hbuild : variant.buildTags.contains tag = env.buildTags.contains tag := by
    rw [Bool.eq_iff_iff, TagSet.contains_iff, TagSet.contains_iff]
    exact h.buildTags tag htag
  have htool : variant.toolTags.contains tag = env.toolTags.contains tag := by
    rw [Bool.eq_iff_iff, TagSet.contains_iff, TagSet.contains_iff]
    exact h.toolTags tag htag
  unfold holdsAnyway isReleaseTag
  rw [hbuild, htool, h.compiler, h.goMinor]

/-- The switches as a variant has the tags. -/
def switchesOf (variant : BuildEnv) (name : String) (header : Header) : List (String × Bool) :=
  (switchedTags name header).map fun tag => (tag, variant.matchesTag tag)

theorem map_fst_switchesOf (variant : BuildEnv) (name : String) (header : Header) :
    (switchesOf variant name header).map (·.1) = switchedTags name header := by
  unfold switchesOf
  rw [List.map_map]
  exact List.map_id _

/-- A tag that holds whatever its switch says holds in every variant, unless it could be taken out
    of the set in which it is not switched. -/
theorem holdsAnyway_of_holdsFixed {env variant : BuildEnv} {mentioned : List String} {tag : String}
    (hvariant : env.IsVariant mentioned variant) (hfree : isFreeTag tag = true)
    (hswitch : tag ≠ env.compiler → (env.awayTags tag).contains tag = false)
    (h : env.holdsFixed tag = true) : variant.holdsAnyway tag = true := by
  have hcompiler : tag = env.compiler := by
    by_contra hne
    unfold holdsFixed at h
    rw [hswitch hne, isReleaseTag_eq_false env (of_isFreeTag hfree).2.2.1] at h
    simp [hne] at h
  unfold holdsAnyway
  rw [hvariant.compiler]
  simp [hcompiler]

/-- A tag that is switched holds in what is tried as it holds in the variant. -/
theorem matchesTag_tried_of_isFreeTag {env variant : BuildEnv} {name system machine tag : String}
    {header : Header} (cgo : Bool) (hsystem : system ∈ Platform.knownOS)
    (hmachine : machine ∈ Platform.knownArch)
    (hvariant : env.IsVariant (mentionedTags name header) variant)
    (hswitched : tag ∈ switchedTags name header)
    (hswitch : tag ≠ env.compiler → (env.awayTags tag).contains tag = false) :
    ((env.onPlatform system machine cgo).switchTags (switchesOf variant name header)).matchesTag
      tag = variant.matchesTag tag := by
  have hfree := (mem_of_mem_switchedTags hswitched).2
  have hnodup : ((switchesOf variant name header).map (·.1)).Nodup :=
    map_fst_switchesOf variant name header ▸ nodup_switchedTags name header
  have hlookup : (switchesOf variant name header).lookup tag = some (variant.matchesTag tag) :=
    List.lookup_graph _ hswitched
  rw [matchesTag_of_isFreeTag hfree (by rw [goos_switchTags]; exact hsystem)
    (by rw [goarch_switchTags]; exact hmachine),
    holdsAnyway_tried env system machine cgo hnodup, hlookup, Option.getD_some,
    matchesTag_of_isFreeTag hfree hvariant.goos hvariant.goarch]
  cases hfixed : env.holdsFixed tag with
  | false => rw [Bool.or_false]
  | true => rw [holdsAnyway_of_holdsFixed hvariant hfree hswitch hfixed, Bool.true_or]

/-- A tag that is not switched holds in what is tried as it holds in the variant, if it holds anyway
    or the platforms agree about it. -/
theorem matchesTag_tried_of_not_isFreeTag {env tried variant : BuildEnv} {mentioned : List String}
    {tag : String} (htried : env.IsTried mentioned tried)
    (hvariant : env.IsVariant mentioned variant) (hfree : ¬ isFreeTag tag = true)
    (hcgo : tag ≠ "cgo")
    (hsystem : env.holdsAnyway tag = false →
      systemHolds tried.goos tag = systemHolds variant.goos tag)
    (hmachine : env.holdsAnyway tag = false → (tag = tried.goarch ↔ tag = variant.goarch)) :
    tried.matchesTag tag = variant.matchesTag tag := by
  rw [matchesTag_eq, matchesTag_eq, if_neg hcgo, if_neg hcgo,
    htried.unswitched tag fun h => hfree h.2, hvariant.holdsAnyway_eq fun h => hfree h.2]
  cases hanyway : env.holdsAnyway tag with
  | true => rw [Bool.or_true, Bool.or_true]
  | false => rw [hsystem hanyway, decide_eq_decide.mpr (hmachine hanyway)]

/-- **Where the platforms that are tried stand for the rest, something that is tried builds what a
    variant builds.** -/
theorem exists_candidate_of_covers {env variant : BuildEnv} {name : String} {header : Header}
    (hos : env.goos ∈ Platform.knownOS) (harch : env.goarch ∈ Platform.knownArch)
    (hfew : FewFreeTags (mentionedTags name header))
    (hcovers : env.Covers (mentionedTags name header))
    (hvariant : env.IsVariant (mentionedTags name header) variant) :
    ∃ candidate ∈ env.candidates name header,
      candidate.matchesFile name header = variant.matchesFile name header := by
  obtain ⟨system, hsystem, hsystems⟩ := hcovers.system variant.goos hvariant.goos
  obtain ⟨machine, hmachine, hmachines⟩ := hcovers.machine variant.goarch hvariant.goarch
  let cgo := if asksCgo name header then variant.cgo else env.cgo
  have hcgo : cgo = env.cgo ∨ asksCgo name header = true := by
    cases h : asksCgo name header <;> simp [cgo, h]
  have hmem : (env.onPlatform system machine cgo).switchTags (switchesOf variant name header) ∈
      env.candidates name header :=
    mem_candidates.mpr ⟨system, hsystem, machine, hmachine, cgo, hcgo, _,
      map_fst_switchesOf variant name header, rfl⟩
  refine ⟨_, hmem, matchesFile_congr (fun himports => ?_) fun tag htag => ?_⟩
  · rw [cgo_switchTags]
    exact if_pos (by simp [asksCgo, himports])
  by_cases hcgoTag : tag = "cgo"
  · subst hcgoTag
    rw [matchesTag_eq, matchesTag_eq, if_pos rfl, if_pos rfl, cgo_switchTags]
    exact if_pos (by simp [asksCgo, htag])
  by_cases hfree : isFreeTag tag = true
  · have hswitched : tag ∈ switchedTags name header := by
      rw [switchedTags_eq hfew]
      exact List.mem_filter.mpr ⟨htag, hfree⟩
    exact matchesTag_tried_of_isFreeTag cgo (systems_known hos hsystem)
      (machines_known harch hmachine) hvariant hswitched (hcovers.switch tag htag hfree)
  · refine matchesTag_tried_of_not_isFreeTag (isTried_of_mem_candidates hmem) hvariant hfree hcgoTag
      ?_ ?_
    · rw [goos_switchTags]
      exact hsystems tag htag
    · rw [goarch_switchTags]
      exact hmachines tag htag

theorem complete_of_covers {env : BuildEnv} {mentioned : List String}
    (hos : env.goos ∈ Platform.knownOS) (harch : env.goarch ∈ Platform.knownArch)
    (hfew : FewFreeTags mentioned) (hcovers : env.Covers mentioned) : env.Complete mentioned := by
  rintro name header rfl hnone variant hvariant
  obtain ⟨candidate, hmem, heq⟩ :=
    exists_candidate_of_covers hos harch hfew hcovers hvariant
  rw [← heq]
  unfold fitting at hnone
  split at hnone
  · exact absurd hnone (by simp)
  · simpa using List.find?_eq_none.mp hnone candidate hmem

/-- Whether building for a system makes a tag hold, apart from `unix`. -/
theorem systemHolds_iff {system tag : String} (hunix : tag ≠ "unix") :
    systemHolds system tag = true ↔ tag = system ∨ (tag, system) ∈ kinSystems := by
  have hlookup : kinSystems.lookup tag = some system ↔ (tag, system) ∈ kinSystems := by
    constructor
    · intro h
      obtain ⟨before, behind, heq, -⟩ := List.lookup_eq_some_iff.mp h
      rw [heq]
      exact List.mem_append_right _ List.mem_cons_self
    · have hall : ∀ pair ∈ kinSystems, kinSystems.lookup pair.1 = some pair.2 := by decide
      exact hall _
  simp [systemHolds, hunix, hlookup]

/-- A value that is not mentioned is tried, if it is one of the usual ones. -/
theorem exists_fresh {values mentioned : List String} (present : String)
    (h : ∃ value ∈ values, value ∉ mentioned) :
    ∃ value ∈ values, value ∉ mentioned ∧
      (value = present ∨ freshValue values mentioned present = some value) := by
  obtain ⟨value, hvalue, hnew⟩ := h
  by_cases hpresent : value = present
  · exact ⟨value, hvalue, hnew, Or.inl hpresent⟩
  · have hsome : (freshValue values mentioned present).isSome = true := by
      unfold freshValue
      rw [List.find?_isSome]
      exact ⟨value, hvalue, by simp [hnew, hpresent]⟩
    obtain ⟨fresh, hfresh⟩ := Option.isSome_iff_exists.mp hsome
    have hspec := List.find?_some hfresh
    simp only [Bool.and_eq_true, Bool.not_eq_true', List.contains_eq_mem, decide_eq_false_iff_not]
      at hspec
    exact ⟨fresh, List.mem_of_find?_eq_some hfresh, hspec.1, Or.inr hfresh⟩

/-- **The platforms that are tried stand for the rest if `unix` is not mentioned and one of the
    usual systems and one of the usual architectures are left over.** -/
theorem covers_of_not_unix {env : BuildEnv} {mentioned : List String}
    (hunix : "unix" ∉ mentioned) (hsystem : ∃ system ∈ otherSystems, system ∉ mentioned)
    (hmachine : ∃ machine ∈ otherMachines, machine ∉ mentioned)
    (hswitch : ∀ tag ∈ mentioned, isFreeTag tag = true → tag ≠ env.compiler →
      (env.awayTags tag).contains tag = false) : env.Covers mentioned where
  system system hknown := by
    have hne : ∀ tag ∈ mentioned, tag ≠ "unix" := fun tag htag e => hunix (e ▸ htag)
    have hmentions : ∀ tag ∈ mentioned, Platform.isOS tag = true → tag ∈ env.systems mentioned :=
      fun tag htag hos => by simp [systems, htag, hos]
    by_cases hown : system ∈ mentioned
    · exact ⟨system, hmentions system hown (Platform.isOS_iff.mpr hknown), fun _ _ _ => rfl⟩
    by_cases hkin : ∃ tag ∈ mentioned, (tag, system) ∈ kinSystems
    · -- A system that is built like a mentioned one, and is not mentioned itself.
      obtain ⟨like, hlike, hpair⟩ := hkin
      have hkeys : ∀ pair ∈ kinSystems, Platform.isOS pair.1 = true ∧
          (∀ other ∈ kinSystems, other.2 ≠ pair.1) ∧
          ∀ other ∈ kinSystems, other.2 = pair.2 → other.1 = pair.1 := by decide
      obtain ⟨hos, hnoValue, hinjective⟩ := hkeys _ hpair
      refine ⟨like, hmentions like hlike hos, fun tag htag _ => ?_⟩
      rw [Bool.eq_iff_iff, systemHolds_iff (hne tag htag), systemHolds_iff (hne tag htag)]
      constructor
      · rintro (rfl | h)
        · exact Or.inr hpair
        · exact absurd rfl (hnoValue _ h)
      · rintro (rfl | h)
        · exact absurd htag hown
        · exact Or.inl (hinjective _ h rfl)
    · obtain ⟨fresh, hfresh, hnew, htried⟩ := exists_fresh env.goos hsystem
      refine ⟨fresh, ?_, fun tag htag _ => ?_⟩
      · rcases htried with rfl | h
        · exact goos_mem_systems env mentioned
        · simp [systems, h]
      · have hvalues : ∀ other ∈ otherSystems, ∀ pair ∈ kinSystems, pair.2 ≠ other := by decide
        rw [Bool.eq_iff_iff, systemHolds_iff (hne tag htag), systemHolds_iff (hne tag htag)]
        refine iff_of_false ?_ ?_
        · rintro (rfl | h)
          · exact hnew htag
          · exact hvalues fresh hfresh _ h rfl
        · rintro (rfl | h)
          · exact hown htag
          · exact hkin ⟨tag, htag, h⟩
  machine machine hknown := by
    by_cases hown : machine ∈ mentioned
    · refine ⟨machine, ?_, fun _ _ _ => Iff.rfl⟩
      simp [machines, hown, Platform.isArch_iff.mpr hknown]
    · obtain ⟨fresh, -, hnew, htried⟩ := exists_fresh env.goarch hmachine
      refine ⟨fresh, ?_, fun tag htag _ => iff_of_false ?_ ?_⟩
      · rcases htried with rfl | h
        · exact goarch_mem_machines env mentioned
        · simp [machines, h]
      · rintro rfl
        exact hnew htag
      · rintro rfl
        exact hown htag
  switch := hswitch
/-! ## 3. Where they do not -/

/-- **Where every file is found an environment whenever there is one, something that is tried makes
    the same of the mentioned tags hold as a variant does.** A file with the constraint that
    describes the variant shows it. -/
theorem exists_tried_of_complete {env variant : BuildEnv} {mentioned : List String}
    (hnodup : mentioned.Nodup) (hcomplete : env.Complete mentioned)
    (hvariant : env.IsVariant mentioned variant) :
    ∃ tried, env.IsTried mentioned tried ∧
      ∀ tag ∈ mentioned, tried.matchesTag tag = variant.matchesTag tag := by
  cases mentioned with
  | nil => exact ⟨env, isTried_self env [], fun tag htag => absurd htag List.not_mem_nil⟩
  | cons tag rest =>
    let constraint := Constraint.describing variant.matchesTag tag rest
    let header : Header := ⟨some constraint, some "p", none, false⟩
    have htarget : (FileName.target "a.go").tags = [] := by decide +kernel
    have hmentioned : mentionedTags "a.go" header = tag :: rest := by
      rw [← Constraint.tags_describing variant.matchesTag hnodup]
      simp [mentionedTags, htarget, header, constraint]
    have hmatches : ∀ x : BuildEnv, x.matchesFile "a.go" header = true ↔
        ∀ name ∈ tag :: rest, x.matchesTag name = variant.matchesTag name := by
      intro x
      rw [← Constraint.eval_describing]
      simp [matchesFile, FileName.holds, htarget, header, constraint]
    cases hfit : env.fitting "a.go" header with
    | none =>
      have hnot := hcomplete "a.go" header hmentioned hfit variant hvariant
      rw [(hmatches variant).mpr fun _ _ => rfl] at hnot
      exact absurd hnot (by decide)
    | some found =>
      have htried := isTried_of_fitting hfit
      rw [hmentioned] at htried
      exact ⟨found, htried, (hmatches found).mp (matchesFile_of_fitting hfit)⟩

/-- The environment for another known platform is a variant. -/
theorem isVariant_onPlatform {env : BuildEnv} (mentioned : List String) {system machine : String}
    (hsystem : system ∈ Platform.knownOS) (hmachine : machine ∈ Platform.knownArch) :
    env.IsVariant mentioned (env.onPlatform system machine env.cgo) where
  goos := hsystem
  goarch := hmachine
  goroot := rfl
  gopath := rfl
  compiler := rfl
  goMinor := rfl
  dir := rfl
  overlay := rfl
  buildTags _ _ := Iff.rfl
  toolTags _ _ := Iff.rfl

/-- The environment without a tag that is mentioned and may be switched is a variant. -/
theorem isVariant_without {env : BuildEnv} {mentioned : List String} {tag : String}
    (hos : env.goos ∈ Platform.knownOS) (harch : env.goarch ∈ Platform.knownArch)
    (htag : tag ∈ mentioned) (hfree : isFreeTag tag = true) :
    env.IsVariant mentioned
      { env with buildTags := env.buildTags.remove tag, toolTags := env.toolTags.remove tag } := by
  have hne : ∀ other, ¬ (other ∈ mentioned ∧ isFreeTag other = true) → other ≠ tag := by
    rintro _ hother rfl
    exact hother ⟨htag, hfree⟩
  exact {
    goos := hos
    goarch := harch
    goroot := rfl
    gopath := rfl
    compiler := rfl
    goMinor := rfl
    dir := rfl
    overlay := rfl
    buildTags := fun other hother => by simp [hne other hother]
    toolTags := fun other hother => by simp [hne other hother] }

section Complete

variable {env : BuildEnv} {mentioned : List String} (hos : env.goos ∈ Platform.knownOS)
  (harch : env.goarch ∈ Platform.knownArch) (hnodup : mentioned.Nodup)
  (hcomplete : env.Complete mentioned)

include hos harch hnodup hcomplete

/-- The files for one system alone show that a system is tried that makes the same tags hold. -/
theorem exists_system_of_complete {system : String} (hsystem : system ∈ Platform.knownOS) :
    ∃ tried ∈ env.systems mentioned, ∀ tag ∈ mentioned,
      env.holdsAnyway tag = false → systemHolds tried tag = systemHolds system tag := by
  obtain ⟨tried, htried, hsame⟩ := exists_tried_of_complete hnodup hcomplete
    (isVariant_onPlatform mentioned hsystem harch)
  have hknown := systems_known hos htried.goos
  refine ⟨tried.goos, htried.goos, fun tag htag hanyway => ?_⟩
  by_cases hkind : Platform.isOS tag = true ∨ tag = "unix"
  · have hnotFree : ¬ (tag ∈ mentioned ∧ isFreeTag tag = true) := by
      rw [(of_isSystemTag hkind).2.1]
      simp
    have hsystems := hsame tag htag
    rwa [matchesTag_of_isSystemTag hkind (machines_known harch htried.goarch)
        (by rw [htried.unswitched tag hnotFree, hanyway]),
      matchesTag_of_isSystemTag hkind (by exact harch) (by exact hanyway)] at hsystems
  · rw [not_or, Bool.not_eq_true] at hkind
    rw [systemHolds_eq_false hknown hkind.1 hkind.2,
      systemHolds_eq_false hsystem hkind.1 hkind.2]

/-- The files for one architecture alone show that one is tried that makes the same tags hold. -/
theorem exists_machine_of_complete {machine : String} (hmachine : machine ∈ Platform.knownArch) :
    ∃ tried ∈ env.machines mentioned, ∀ tag ∈ mentioned,
      env.holdsAnyway tag = false → (tag = tried ↔ tag = machine) := by
  obtain ⟨tried, htried, hsame⟩ := exists_tried_of_complete hnodup hcomplete
    (isVariant_onPlatform mentioned hos hmachine)
  have hknown := machines_known harch htried.goarch
  refine ⟨tried.goarch, htried.goarch, fun tag htag hanyway => ?_⟩
  by_cases hkind : Platform.isArch tag = true
  · have hnotFree : ¬ (tag ∈ mentioned ∧ isFreeTag tag = true) := by
      simp [isFreeTag, hkind]
    have hmachines := hsame tag htag
    rw [matchesTag_of_isArch hkind (systems_known hos htried.goos)
        (by rw [htried.unswitched tag hnotFree, hanyway]),
      matchesTag_of_isArch hkind (by exact hos) (by exact hanyway)] at hmachines
    exact decide_eq_decide.mp hmachines
  · rw [Bool.not_eq_true] at hkind
    exact iff_of_false (ne_of_isArch_eq_false hkind hknown) (ne_of_isArch_eq_false hkind hmachine)

/-- The files without a tag show that it is not in the set in which it cannot be switched. -/
theorem not_away_of_complete {tag : String} (htag : tag ∈ mentioned)
    (hfree : isFreeTag tag = true) (hcompiler : tag ≠ env.compiler) :
    (env.awayTags tag).contains tag = false := by
  by_contra haway
  rw [Bool.not_eq_false] at haway
  obtain ⟨tried, htried, hsame⟩ := exists_tried_of_complete hnodup hcomplete
    (isVariant_without hos harch htag hfree)
  have hon : tried.matchesTag tag = true := by
    rw [matchesTag_of_isFreeTag hfree (systems_known hos htried.goos)
      (machines_known harch htried.goarch)]
    exact htried.fixed tag (by simp [holdsFixed, haway])
  rw [hsame tag htag, matchesTag_of_isFreeTag hfree (by exact hos) (by exact harch)] at hon
  have hrelease := isReleaseTag_eq_false env (of_isFreeTag hfree).2.2.1
  have hoff : ¬ (env.isReleaseTag tag = true) := by
    rw [hrelease]
    decide
  simp only [holdsAnyway, isReleaseTag, Bool.or_eq_true, decide_eq_true_eq, TagSet.contains_iff,
    TagSet.mem_remove, ne_eq, not_true_eq_false, false_and, or_false, hcompiler,
    false_or] at hon
  exact hoff hon

theorem covers_of_complete : env.Covers mentioned where
  system _ hsystem := exists_system_of_complete hos harch hnodup hcomplete hsystem
  machine _ hmachine := exists_machine_of_complete hos harch hnodup hcomplete hmachine
  switch _ htag hfree hcompiler :=
    not_away_of_complete hos harch hnodup hcomplete htag hfree hcompiler

end Complete

/-- When no environment is found for a file that can be read. -/
theorem resolveFor_eq_noMatch_iff {tree : FileTree} {env : BuildEnv} {path : Path}
    {name source : String} {header : Header} (hname : path.fileName = some name)
    (hsource : env.effectiveSource tree path = .ok source)
    (hheader : Header.scan source.toList = .ok header) :
    env.resolveFor tree path = .error (.noMatch path (whyNothing header)) ↔
      env.fitting name header = none := by
  unfold resolveFor
  simp only [hname, hsource, hheader]
  cases env.fitting name header <;> simp

/-- **Exactly where the platforms that are tried stand for the rest, files that are found no
    environment have none.** -/
theorem complete_iff_covers (env : BuildEnv) (name : String) (header : Header)
    (hos : env.goos ∈ Platform.knownOS) (harch : env.goarch ∈ Platform.knownArch)
    (hfew : FewFreeTags (mentionedTags name header)) :
    (∀ tree path source, path.fileName = some name → env.effectiveSource tree path = .ok source →
        Header.scan source.toList = .ok header →
        (env.resolveFor tree path = .error (.noMatch path (whyNothing header)) ↔
          env.fitting name header = none)) ∧
      (env.Complete (mentionedTags name header) ↔ env.Covers (mentionedTags name header)) :=
  ⟨fun _ _ _ hname hsource hheader => resolveFor_eq_noMatch_iff hname hsource hheader,
    covers_of_complete hos harch (nodup_mentionedTags name header),
    complete_of_covers hos harch hfew⟩

/-- Files for arm64 systems that are or are not Linux are found an environment whenever there is
    one. -/
theorem complete_iff_covers_armSource :
    "linux" ∈ Platform.knownOS ∧ "amd64" ∈ Platform.knownArch ∧
      FewFreeTags (mentionedTags "y_test.go" armHeader) ∧
      (∀ tree path source, path.fileName = some "y_test.go" →
        (hostWith ⟨"/p/y_test.go"⟩ armSource).effectiveSource tree path = .ok source →
        Header.scan source.toList = .ok armHeader →
        ((hostWith ⟨"/p/y_test.go"⟩ armSource).resolveFor tree path =
            .error (.noMatch path (whyNothing armHeader)) ↔
          (hostWith ⟨"/p/y_test.go"⟩ armSource).fitting "y_test.go" armHeader = none)) ∧
      (hostWith ⟨"/p/y_test.go"⟩ armSource).Complete (mentionedTags "y_test.go" armHeader) := by
  have hos : "linux" ∈ Platform.knownOS := by decide
  have harch : "amd64" ∈ Platform.knownArch := by decide
  have hmentioned : mentionedTags "y_test.go" armHeader = ["linux", "arm64"] := by decide +kernel
  have hfew : FewFreeTags (mentionedTags "y_test.go" armHeader) := by
    unfold FewFreeTags
    decide +kernel
  obtain ⟨hresolve, hiff⟩ :=
    complete_iff_covers (hostWith ⟨"/p/y_test.go"⟩ armSource) "y_test.go" armHeader hos harch hfew
  refine ⟨hos, harch, hfew, hresolve, hiff.mpr ?_⟩
  rw [hmentioned]
  exact covers_of_not_unix (by decide) ⟨"darwin", by decide, by decide⟩
    ⟨"amd64", by decide, by decide⟩ (by decide +kernel)

/-- A source for every system but the Unix ones. -/
def notUnixSource : String := "//go:build !unix\n\npackage p\n"

/-- **No environment is found for a file with the constraint `!unix`, which builds for Windows.** -/
theorem not_complete_host :
    (hostWith ⟨"/p/a.go"⟩ notUnixSource).resolveFor ⟨[], []⟩ ⟨"/p/a.go"⟩ =
        .error (.noMatch ⟨"/p/a.go"⟩ (.unsatisfied (.not (.tag "unix")))) ∧
      (hostWith ⟨"/p/a.go"⟩ notUnixSource).IsVariant ["unix"]
        { hostWith ⟨"/p/a.go"⟩ notUnixSource with goos := "windows" } ∧
      { hostWith ⟨"/p/a.go"⟩ notUnixSource with goos := "windows" }.matchesFile "a.go"
        ⟨some (.not (.tag "unix")), some "p", none, false⟩ = true := by
  let env := hostWith ⟨"/p/a.go"⟩ notUnixSource
  let header : Header := ⟨some (.not (.tag "unix")), some "p", none, false⟩
  have hnone : ∀ combination ∈ combinations (env.dimensions "a.go" header),
      (env.apply combination).matchesFile "a.go" header = false := by decide +kernel
  have hfit : env.fitting "a.go" header = none := by
    have hself : env.matchesFile "a.go" header = false := by decide +kernel
    unfold fitting
    rw [hself, if_neg (by decide), List.find?_eq_none]
    intro candidate hcandidate
    obtain ⟨combination, hmem, rfl⟩ := List.mem_map.mp hcandidate
    rw [hnone combination (List.mem_mergeSort.mp hmem)]
    decide
  have hname : Path.fileName ⟨"/p/a.go"⟩ = some "a.go" := by decide +kernel
  have hsource : env.effectiveSource ⟨[], []⟩ ⟨"/p/a.go"⟩ = .ok notUnixSource := by decide +kernel
  have hheader : Header.scan notUnixSource.toList = .ok header := by decide +kernel
  exact ⟨(resolveFor_eq_noMatch_iff hname hsource hheader).mpr hfit,
    isVariant_onPlatform ["unix"] (by decide) (by decide), by decide +kernel⟩

end TestScout.BuildEnv

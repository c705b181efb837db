import TestScout.BuildEnv.Difference
import TestScout.Proofs.BuildEnv.Cheapest
import TestScout.Proofs.BuildEnv.Variables

/-!
# Changes of tag sets that are needed

A difference between environments tells the tags to set. Where a tag holds before a search and after
it, there is nothing to tell about it. But the search writes down what holds: a tag that holds stays
on in the set in which it is switched, whether it was in that set or held for another reason. Main
statements:

* `IsCheapest.eq_matchesTag`: in a cheapest change a tag that holds as before has its present
  position;
* `IsCheapest.sameMember_iff`: so it moves exactly if it held for another reason than its set;
* `holdsElsewhere_iff`: what the other reasons are in an environment that variables and flags give;
* `onlyNeeded_iff`: what is told about tags is needed, unless such a tag is written down;
* `movesTag_cgoTree`: a tag of an experiment that the user asks for by flag is written down.
-/

namespace TestScout

namespace BuildEnv

/-! ## 1. Positions in a cheapest change -/

/-- A list of switches that has a switch for a tag splits there. -/
theorem exists_split {switches : List (String × Bool)} {tag : String} {on : Bool}
    (hnodup : (switches.map (·.1)).Nodup) (hmem : (tag, on) ∈ switches) :
    ∃ before behind, switches = before ++ (tag, on) :: behind ∧ tag ∉ before.map (·.1) := by
  obtain ⟨before, behind, rfl⟩ := List.append_of_mem hmem
  rw [List.map_append, List.nodup_append] at hnodup
  exact ⟨before, behind, rfl, fun hbefore => hnodup.2.2 tag hbefore tag (by simp) rfl⟩

theorem lookup_of_mem {switches : List (String × Bool)} {tag : String} {on : Bool}
    (hnodup : (switches.map (·.1)).Nodup) (hmem : (tag, on) ∈ switches) :
    switches.lookup tag = some on := by
  obtain ⟨before, behind, rfl, hnew⟩ := exists_split hnodup hmem
  rw [lookup_append_cons on hnew, if_pos rfl]

/-- A tag that holds without its switch or by it. -/
theorem matchesTag_of_contains_homeTags {env : BuildEnv} {tag : String} (hcgo : tag ≠ "cgo")
    (h : (env.homeTags tag).contains tag = true) : env.matchesTag tag = true := by
  rw [matchesTag_eq, if_neg hcgo, holdsAnyway_eq, h, Bool.true_or, Bool.or_true]

/-- The set in which a tag is switched has it as its position says, or as before. -/
theorem contains_homeTags_apply {change : Change} (hnodup : (change.tags.map (·.1)).Nodup)
    (env : BuildEnv) (tag : String) :
    ((change.apply env).homeTags tag).contains tag =
      (change.tags.lookup tag).getD ((env.homeTags tag).contains tag) :=
  contains_homeTags_switchTags (env.onPlatform change.goos change.goarch change.cgo) _ tag hnodup

/-- The other set has it as before. -/
theorem contains_awayTags_apply (change : Change) (env : BuildEnv) (tag : String) :
    ((change.apply env).awayTags tag).contains tag = (env.awayTags tag).contains tag :=
  contains_awayTags_switchTags (env.onPlatform change.goos change.goarch change.cgo) _ tag

section Cheapest

variable {env : BuildEnv} {name : String} {header : Header} {change : Change}
  (h : env.IsCheapest name header change)

include h

/-- **In a cheapest change a tag that holds as before has its present position.** With the present
    position instead the same tags hold, and the change is cheaper. -/
theorem IsCheapest.eq_matchesTag {tag : String} {on : Bool} (hmem : (tag, on) ∈ change.tags)
    (hsame : (change.apply env).matchesTag tag = env.matchesTag tag) :
    on = env.matchesTag tag := by
  by_contra hne
  obtain ⟨before, behind, hsplit, hnew⟩ := exists_split h.offered.nodup hmem
  -- the same change, but the tag stays as it is
  let other : Change := { change with tags := before ++ (tag, env.matchesTag tag) :: behind }
  have hoffers : env.Offers name header other :=
    { goos := h.offered.goos
      goarch := h.offered.goarch
      cgo := h.offered.cgo
      tags := by rw [← h.offered.tags, hsplit, List.map_append, List.map_append]; rfl }
  have hcost : other.cost env < change.cost env := by
    have hchanged : (on != env.matchesTag tag) = true := by simpa using hne
    unfold Change.cost
    simp only [other, hsplit, List.countP_append, List.countP_cons, hchanged, bne_self_eq_false,
      Bool.false_eq_true, if_false, if_true]
    omega
  have htruth : ∀ t, (other.apply env).matchesTag t = (change.apply env).matchesTag t := by
    intro t
    by_cases ht : t = tag
    · subst ht
      rw [matchesTag_apply h.offered.nodup, hsplit, lookup_append_cons on hnew, if_pos rfl] at hsame
      rw [matchesTag_apply hoffers.nodup, matchesTag_apply h.offered.nodup, hsplit,
        lookup_append_cons on hnew, lookup_append_cons _ hnew, if_pos rfl, if_pos rfl]
      split at hsame
      · rename_i hcgo
        rw [if_pos hcgo, if_pos hcgo]
      · rename_i hcgo
        rw [if_neg hcgo, if_neg hcgo, ← hsame]
        cases on <;> simp_all
    · rw [matchesTag_apply hoffers.nodup, matchesTag_apply h.offered.nodup, hsplit,
        lookup_append_cons on hnew, lookup_append_cons _ hnew, if_neg ht, if_neg ht]
  have hbuilds : (other.apply env).matchesFile name header = true := by
    have hcgo : (other.apply env).cgo = (change.apply env).cgo := by
      unfold Change.apply
      rw [cgo_switchTags, cgo_switchTags]
    rw [matchesFile_congr (fun _ => hcgo) fun t _ => htruth t]
    exact h.builds
  exact absurd (h.least other hoffers hbuilds) (Nat.not_le.mpr hcost)

/-- A tag that is switched and holds as before is in its set exactly if it holds. -/
theorem IsCheapest.contains_homeTags {tag : String} (hswitched : tag ∈ switchedTags name header)
    (hsame : (change.apply env).matchesTag tag = env.matchesTag tag) :
    ((change.apply env).homeTags tag).contains tag = env.matchesTag tag := by
  have hnames : tag ∈ change.tags.map (·.1) := h.offered.tags ▸ hswitched
  obtain ⟨⟨tag, on⟩, hmem, rfl⟩ := List.mem_map.mp hnames
  rw [contains_homeTags_apply h.offered.nodup, lookup_of_mem h.offered.nodup hmem,
    Option.getD_some, h.eq_matchesTag hmem hsame]

end Cheapest

/-! ## 2. Tags that move -/

/-- A tag is in each set of tags if it was in it before. -/
def SameMember (env found : BuildEnv) (tag : String) : Prop :=
  (tag ∈ found.buildTags.tags ↔ tag ∈ env.buildTags.tags) ∧
    (tag ∈ found.toolTags.tags ↔ tag ∈ env.toolTags.tags)

/-- A tag holds, but not as a member of the set in which it is switched. -/
def HoldsElsewhere (env : BuildEnv) (tag : String) : Prop :=
  env.matchesTag tag = true ∧ (env.homeTags tag).contains tag = false

/-- Where the other set is left alone, only the set in which a tag is switched counts. -/
theorem sameMember_iff_homeTags {env found : BuildEnv} {tag : String}
    (haway : (found.awayTags tag).contains tag = (env.awayTags tag).contains tag) :
    SameMember env found tag ↔
      (found.homeTags tag).contains tag = (env.homeTags tag).contains tag := by
  unfold awayTags at haway
  unfold SameMember homeTags
  simp only [← TagSet.contains_iff]
  cases hexperiment : isExperiment tag with
  | true =>
    simp only [hexperiment, if_true] at haway
    simp only [if_true, haway, true_and]
    exact Bool.eq_iff_iff.symm
  | false =>
    simp only [hexperiment, Bool.false_eq_true, if_false] at haway
    simp only [Bool.false_eq_true, if_false, haway, and_true]
    exact Bool.eq_iff_iff.symm

/-- **A tag that holds as before moves exactly if it is switched and held for another reason than
    its set.** -/
theorem IsCheapest.sameMember_iff {env : BuildEnv} {name : String} {header : Header}
    {change : Change} (h : env.IsCheapest name header change) {tag : String}
    (hsame : (change.apply env).matchesTag tag = env.matchesTag tag) :
    SameMember env (change.apply env) tag ↔
      ¬ (tag ∈ switchedTags name header ∧ env.HoldsElsewhere tag) := by
  rw [sameMember_iff_homeTags (contains_awayTags_apply change env tag)]
  by_cases hswitched : tag ∈ switchedTags name header
  · have hcgo : tag ≠ "cgo" := (of_isFreeTag (mem_of_mem_switchedTags hswitched).2).2.2.2.1
    rw [h.contains_homeTags hswitched hsame]
    unfold HoldsElsewhere
    cases hhome : (env.homeTags tag).contains tag with
    | true => simp [matchesTag_of_contains_homeTags hcgo hhome]
    | false => simp [hswitched]
  · have hnone : change.tags.lookup tag = none := by
      rw [List.lookup_eq_none_iff]
      intro switch hswitch
      have hmem : switch.1 ∈ switchedTags name header := by
        have hnames : change.tags.map (·.1) = switchedTags name header := h.offered.tags
        rw [← hnames]
        exact List.mem_map_of_mem hswitch
      have hne : tag ≠ switch.1 := fun e => hswitched (e ▸ hmem)
      simpa using hne
    rw [contains_homeTags_apply h.offered.nodup, hnone, Option.getD_none]
    exact iff_of_true rfl fun hboth => hswitched hboth.1

/-! ## 3. Environments that variables and flags give -/

/-- A tag is not in the set in which it is switched, but holds: as the name of the platform, or as a
    tag of an experiment that the user asks for. -/
def Misplaced (env : BuildEnv) (tag : String) : Prop :=
  (env.homeTags tag).contains tag = false ∧
    (tag = env.goos ∨ tag = env.goarch ∨ isExperiment tag = true ∧ tag ∈ env.buildTags.tags)

/-- A tag that may be switched holds by a system only if it is its name. -/
theorem systemHolds_of_isFreeTag {system tag : String} (hfree : isFreeTag tag = true) :
    systemHolds system tag = decide (tag = system) := by
  obtain ⟨hos, -, -, -, hunix⟩ := of_isFreeTag hfree
  have hkin : kinSystems.lookup tag = none := by
    rw [List.lookup_eq_none_iff]
    intro pair hpair
    have hall : ∀ pair ∈ kinSystems, pair.1 ∈ Platform.knownOS := by decide
    have hother : tag ≠ pair.1 := ne_of_isOS_eq_false hos (hall pair hpair)
    simpa using hother
  simp [systemHolds, hunix, hkin]

section Flags

variable {host : Host} {tree : FileTree} {value? : String → Option String} {settings : Settings}
  {flags : BuildFlags} {env : BuildEnv}
  (henv : flags.apply tree (ofVariables host value? settings) = .ok env)

include henv

/-- Flags leave the compiler and the tags of experiments alone. -/
theorem of_flags : env.compiler = "gc" ∧ env.toolTags = givenExperiments value? := by
  unfold BuildFlags.apply at henv
  cases hoverlay : flags.overlay with
  | none =>
    simp only [hoverlay] at henv
    obtain rfl := Except.ok.inj henv
    exact ⟨rfl, rfl⟩
  | some argument =>
    simp only [hoverlay] at henv
    split at henv
    · cases henv
    · obtain rfl := Except.ok.inj henv
      exact ⟨rfl, rfl⟩
    · obtain rfl := Except.ok.inj henv
      exact ⟨rfl, rfl⟩

/-- **Why a tag that may be switched holds elsewhere.** -/
theorem holdsElsewhere_iff {tag : String} (hfree : isFreeTag tag = true) :
    env.HoldsElsewhere tag ↔ env.Misplaced tag := by
  obtain ⟨hcompiler, htools⟩ := of_flags henv
  obtain ⟨-, -, hrelease, hcgo, -⟩ := of_isFreeTag hfree
  have hgc : tag ≠ env.compiler := by
    intro heq
    subst heq
    rw [hcompiler] at hfree
    exact absurd hfree (by decide)
  have haway : (env.awayTags tag).contains tag = true ↔
      isExperiment tag = true ∧ tag ∈ env.buildTags.tags := by
    rw [TagSet.contains_iff]
    unfold awayTags
    cases hexperiment : isExperiment tag with
    | true => simp
    | false =>
      -- the tags of the toolchain are all tags of experiments
      have hnone : tag ∉ env.toolTags.tags := by
        intro hmem
        rw [htools] at hmem
        obtain ⟨experiment, -, rfl⟩ := mem_givenExperiments hmem
        have hstart : isExperiment (experimentTag experiment) = true := by
          unfold isExperiment after? experimentTag
          rw [String.toList_append, List.isPrefixOf?_eq_some_iff_append_eq.mpr rfl]
          rfl
        rw [hstart] at hexperiment
        cases hexperiment
      simp [hnone]
  unfold HoldsElsewhere Misplaced
  rw [and_comm, and_congr_right_iff]
  intro hhome
  rw [matchesTag_eq, if_neg hcgo, systemHolds_of_isFreeTag hfree, holdsAnyway_eq, hhome]
  unfold holdsFixed
  rw [isReleaseTag_eq_false env hrelease]
  simp only [Bool.or_eq_true, decide_eq_true_eq, Bool.false_eq_true, or_false, false_or, hgc, haway,
    or_assoc]

end Flags

/-! ## 4. What is told about tags -/

/-- The tags of the user or of experiments are told exactly if one of the sets is another one. -/
theorem tells_tags_iff {host : Host} {env found : BuildEnv} :
    (EnvDifference.between host env found).buildTags.isSome = true ∨
        (EnvDifference.between host env found).toolTags.isSome = true ↔
      ∃ tag, ¬ SameMember env found tag := by
  have hwhen : ∀ {α : Type} {differs : Bool} {value : α},
      (EnvDifference.when differs value).isSome = differs := by
    intro α differs value
    cases differs <;> rfl
  have hset : ∀ {x y : TagSet}, (!x.same y) = true ↔ ∃ tag, ¬ (tag ∈ x.tags ↔ tag ∈ y.tags) := by
    intro x y
    rw [Bool.not_eq_true', ← Bool.not_eq_true, TagSet.same_iff, not_forall]
  unfold EnvDifference.between SameMember
  rw [hwhen, hwhen, hset, hset, ← exists_or]
  simp only [not_and_or]

/-- What is told about tags is needed: a tag that holds as before stays where it is, and tags are
    told only if a mentioned tag comes to hold or ceases to. -/
structure OnlyNeeded (host : Host) (env found : BuildEnv) (mentioned : List String) : Prop where
  members : ∀ tag, found.matchesTag tag = env.matchesTag tag → SameMember env found tag
  told : (EnvDifference.between host env found).buildTags.isSome = true ∨
      (EnvDifference.between host env found).toolTags.isSome = true →
    ∃ tag ∈ mentioned, found.matchesTag tag ≠ env.matchesTag tag

/-- The search that leaves tags that hold as before where they are tells what is needed. -/
theorem onlyNeeded_of_members {host : Host} {env found : BuildEnv} {name : String} {header : Header}
    (hframe : Frame header env found)
    (hmembers : ∀ tag, found.matchesTag tag = env.matchesTag tag → SameMember env found tag) :
    OnlyNeeded host env found (mentionedTags name header) where
  members := hmembers
  told := by
    rw [tells_tags_iff]
    intro h
    obtain ⟨tag, hmoved⟩ := h
    refine ⟨tag, ?_, fun hsame => hmoved (hmembers tag hsame)⟩
    rw [mem_mentionedTags]
    by_contra hmentioned
    have hnot : ¬ header.Mentions tag := fun h => hmentioned (Or.inr h)
    exact hmoved ⟨hframe.buildTags tag hnot, hframe.toolTags tag hnot⟩

/-- **What is told about tags is needed, unless a tag is written down that held for another reason**
    than the set in which it is switched. The environment comes from variables and flags. -/
theorem onlyNeeded_iff {host : Host} {tree : FileTree} {value? : String → Option String}
    {settings : Settings} {flags : BuildFlags} {env found : BuildEnv} {path : Path}
    (henv : flags.apply tree (ofVariables host value? settings) = .ok env)
    (hfound : env.resolveFor tree path = .ok found) :
    ∃ name source header, path.fileName = some name ∧
      env.effectiveSource tree path = .ok source ∧ Header.scan source.toList = .ok header ∧
      (OnlyNeeded host env found (mentionedTags name header) ↔
        ¬ (env.matchesFile name header = false ∧
          ∃ tag ∈ switchedTags name header, found.matchesTag tag = true ∧ env.Misplaced tag)) := by
  obtain ⟨name, source, header, fit, hname, hsource, hheader, hfit, rfl⟩ :=
    resolveFor_eq_ok_iff.mp hfound
  refine ⟨name, source, header, hname, hsource, hheader, ?_⟩
  have hframe : Frame header env { fit with dir := some (path.parent.getD ⟨"."⟩) } :=
    { frame_of_fitting hfit with }
  cases hmatches : env.matchesFile name header with
  | true =>
    have hself : fit = env := by
      rcases fitting_eq_some hfit with ⟨-, hself⟩ | ⟨hnot, -⟩
      · exact hself
      · rw [hmatches] at hnot
        cases hnot
    subst hself
    exact iff_of_true (onlyNeeded_of_members hframe fun _ _ => ⟨Iff.rfl, Iff.rfl⟩)
      fun h => absurd h.1 (by decide)
  | false =>
    obtain ⟨change, hcheapest, rfl⟩ := exists_isCheapest_of_fitting hmatches hfit
    constructor
    · intro hneeded hwritten
      obtain ⟨-, tag, hswitched, hholds, hmisplaced⟩ := hwritten
      have helsewhere := (holdsElsewhere_iff henv (mem_of_mem_switchedTags hswitched).2).mpr
        hmisplaced
      have hsame : (change.apply env).matchesTag tag = env.matchesTag tag :=
        Eq.trans hholds helsewhere.1.symm
      exact (hcheapest.sameMember_iff hsame).mp (hneeded.members tag hsame)
        ⟨hswitched, helsewhere⟩
    · intro hnone
      refine onlyNeeded_of_members hframe fun tag hsame => ?_
      refine (hcheapest.sameMember_iff hsame).mpr ?_
      intro h
      obtain ⟨hswitched, helsewhere⟩ := h
      exact hnone ⟨rfl, tag, hswitched, hsame.trans helsewhere.1,
        (holdsElsewhere_iff henv (mem_of_mem_switchedTags hswitched).2).mp helsewhere⟩

/-- A tree with the source for two systems of another architecture. -/
def taggedTree : FileTree :=
  ⟨[(["p"], .directory), (["p", "y_test.go"], .file taggedSource.toUTF8)], []⟩

/-- With a tag of the user that the source does not want, only what is needed is told. -/
theorem onlyNeeded_iff_taggedTree :
    let path : Path := ⟨"/p/y_test.go"⟩
    let flags : BuildFlags := ⟨some "race,goexperiment.arenas", none, none, none, none⟩
    ∃ env found, flags.apply taggedTree (ofVariables .built (fun _ => none) .standard) = .ok env ∧
      env.resolveFor taggedTree path = .ok found ∧
      ∃ name source header, path.fileName = some name ∧
        env.effectiveSource taggedTree path = .ok source ∧
        Header.scan source.toList = .ok header ∧
        (OnlyNeeded .built env found (mentionedTags name header) ↔
          ¬ (env.matchesFile name header = false ∧
            ∃ tag ∈ switchedTags name header,
              found.matchesTag tag = true ∧ env.Misplaced tag)) := by
  intro path flags
  let env := flags.applyPlain (ofVariables .built (fun _ => none) .standard)
  have henv : flags.apply taggedTree (ofVariables .built (fun _ => none) .standard) = .ok env := rfl
  have hname : path.fileName = some "y_test.go" := by decide +kernel
  have hsource : env.effectiveSource taggedTree path = .ok taggedSource := by decide +kernel
  have hheader : Header.scan taggedSource.toList = .ok taggedHeader := by decide +kernel
  have hnot : env.matchesFile "y_test.go" taggedHeader = false := by decide +kernel
  let change : Change := ⟨"plan9", "arm64", true, [("slow", true), ("race", false)]⟩
  have hoffers : env.Offers "y_test.go" taggedHeader change :=
    offers_iff.mpr (by decide +kernel)
  have hbuilds : (change.apply env).matchesFile "y_test.go" taggedHeader = true := by
    decide +kernel
  obtain ⟨found, hfound⟩ :=
    (exists_resolveFor_iff hname hsource hheader hnot).mpr ⟨change, hoffers, hbuilds⟩
  exact ⟨env, found, henv, hfound, onlyNeeded_iff henv hfound⟩

/-- A source that needs cgo and an experiment. -/
def cgoSource : String := "//go:build goexperiment.arenas\n\npackage p\n\nimport \"C\"\n"

/-- Its header. -/
def cgoHeader : Header := ⟨some (.tag "goexperiment.arenas"), some "p", none, true⟩

/-- A tree with the source. -/
def cgoTree : FileTree := ⟨[(["p"], .directory), (["p", "a.go"], .file cgoSource.toUTF8)], []⟩

/-- **A tag of an experiment that the user asks for by flag is written down among the experiments**,
    although no mentioned tag comes to hold or ceases to: only cgo is switched. -/
theorem movesTag_cgoTree :
    let flags : BuildFlags := ⟨some "goexperiment.arenas", none, none, some false, none⟩
    ∃ env found, flags.apply cgoTree (ofVariables .built (fun _ => none) .standard) = .ok env ∧
      env.resolveFor cgoTree ⟨"/p/a.go"⟩ = .ok found ∧
      Header.scan cgoSource.toList = .ok cgoHeader ∧
      mentionedTags "a.go" cgoHeader = ["goexperiment.arenas"] ∧
      found.matchesTag "goexperiment.arenas" = env.matchesTag "goexperiment.arenas" ∧
      "goexperiment.arenas" ∉ env.toolTags.tags ∧ "goexperiment.arenas" ∈ found.toolTags.tags ∧
      (EnvDifference.between .built env found).toolTags.isSome = true := by
  intro flags
  let env := flags.applyPlain (ofVariables .built (fun _ => none) .standard)
  have hname : Path.fileName ⟨"/p/a.go"⟩ = some "a.go" := by decide +kernel
  have hsource : env.effectiveSource cgoTree ⟨"/p/a.go"⟩ = .ok cgoSource := by decide +kernel
  have hheader : Header.scan cgoSource.toList = .ok cgoHeader := by decide +kernel
  have hnot : env.matchesFile "a.go" cgoHeader = false := by decide +kernel
  have hswitched : "goexperiment.arenas" ∈ switchedTags "a.go" cgoHeader := by decide +kernel
  have hholds : env.matchesTag "goexperiment.arenas" = true := by decide +kernel
  let change : Change := ⟨"linux", "amd64", true, [("goexperiment.arenas", true)]⟩
  have hoffers : env.Offers "a.go" cgoHeader change := offers_iff.mpr (by decide +kernel)
  have hbuilds : (change.apply env).matchesFile "a.go" cgoHeader = true := by decide +kernel
  obtain ⟨found, hfound⟩ :=
    (exists_resolveFor_iff hname hsource hheader hnot).mpr ⟨change, hoffers, hbuilds⟩
  obtain ⟨cheapest, hcheapest, heq⟩ :=
    exists_isCheapest_of_resolveFor hname hsource hheader hnot hfound
  have hsame : (cheapest.apply env).matchesTag "goexperiment.arenas" =
      env.matchesTag "goexperiment.arenas" := by
    have hmatches := hcheapest.builds
    simp only [matchesFile, cgoHeader, Option.all_some, Constraint.eval, Bool.and_eq_true]
      at hmatches
    rw [hmatches.2, hholds]
  have htool : "goexperiment.arenas" ∈ found.toolTags.tags := by
    have hmem := hcheapest.contains_homeTags hswitched hsame
    rw [hholds, TagSet.contains_iff] at hmem
    rw [heq]
    exact hmem
  have hnone : "goexperiment.arenas" ∉ env.toolTags.tags := List.not_mem_nil
  have htold : (EnvDifference.between .built env found).toolTags.isSome = true := by
    have hdiffers : (!found.toolTags.same env.toolTags) = true := by
      rw [Bool.not_eq_true', ← Bool.not_eq_true, TagSet.same_iff]
      exact fun h => hnone ((h _).mp htool)
    unfold EnvDifference.between
    simp only [hdiffers, EnvDifference.when, if_true, Option.isSome_some]
  have hmatches : found.matchesTag "goexperiment.arenas" =
      env.matchesTag "goexperiment.arenas" := by
    rw [heq]
    exact hsame
  exact ⟨env, found, rfl, hfound, hheader, by decide +kernel, hmatches, hnone, htool, htold⟩

end BuildEnv

end TestScout

import Mathlib.Data.Option.Defs
import TestScout.Proofs.BuildEnv.Resolution

/-!
# Tags that a file does not mention

Environments for one platform that agree about the tags a file mentions are one to the file. Either
both build it or neither does, and the search changes both alike: what it offers depends on the
platform and on mentioned tags only, so from both it tries the same combinations in the same order,
and what one combination makes of them agrees again. Main statements:

* `AgreeOn`: environments that differ in tags that are not mentioned, at most;
* `agreeOn_choose`, `agreeOn_apply`: one change, and a combination of changes, keeps this;
* `AgreeOn.dimensions_eq`: both are offered the same changes;
* `AgreeOn.fitting`: the two searches go in step;
* `resolved_alike`: so no other tag matters to what is found.
-/

namespace TestScout.BuildEnv

/-! ## 1. Environments that agree -/

/-- Environments for one platform, with the same of the mentioned tags in each of their sets. -/
structure AgreeOn (mentioned : List String) (x y : BuildEnv) : Prop where
  goos : x.goos = y.goos
  goarch : x.goarch = y.goarch
  cgo : x.cgo = y.cgo
  compiler : x.compiler = y.compiler
  /-- The tags of the same releases hold. -/
  goMinor : x.goMinor = y.goMinor
  buildTags : ∀ tag ∈ mentioned, tag ∈ x.buildTags.tags ↔ tag ∈ y.buildTags.tags
  toolTags : ∀ tag ∈ mentioned, tag ∈ x.toolTags.tags ↔ tag ∈ y.toolTags.tags

section AgreeOn

variable {mentioned : List String} {x y : BuildEnv} (h : AgreeOn mentioned x y)

include h

/-- **A mentioned tag holds in both or in neither.** -/
theorem AgreeOn.matchesTag_eq {tag : String} (htag : tag ∈ mentioned) :
    x.matchesTag tag = y.matchesTag tag := by
  have hbuild : x.buildTags.contains tag = y.buildTags.contains tag := by
    rw [Bool.eq_iff_iff, TagSet.contains_iff, TagSet.contains_iff]
    exact h.buildTags tag htag
  have htool : x.toolTags.contains tag = y.toolTags.contains tag := by
    rw [Bool.eq_iff_iff, TagSet.contains_iff, TagSet.contains_iff]
    exact h.toolTags tag htag
  unfold matchesTag isImplied isReleaseTag
  rw [hbuild, htool, h.goos, h.goarch, h.cgo, h.compiler, h.goMinor]

/-- One change keeps the agreement. A switched tag is in both sets afterwards, or in neither. -/
theorem agreeOn_choose (choice : Choice) :
    AgreeOn mentioned (x.choose choice) (y.choose choice) := by
  cases choice with
  | goos value => exact { h with goos := rfl }
  | goarch value => exact { h with goarch := rfl }
  | cgo on => exact { h with cgo := rfl }
  | tag name on =>
    have hswitch : ∀ {a b : TagSet}, (∀ tag ∈ mentioned, tag ∈ a.tags ↔ tag ∈ b.tags) →
        ∀ tag ∈ mentioned, tag ∈ (a.switch name on).tags ↔ tag ∈ (b.switch name on).tags := by
      intro a b hab tag htag
      rw [← TagSet.contains_iff, ← TagSet.contains_iff, TagSet.contains_switch,
        TagSet.contains_switch]
      by_cases hname : tag = name
      · rw [if_pos hname, if_pos hname]
      · rw [if_neg hname, if_neg hname, TagSet.contains_iff, TagSet.contains_iff]
        exact hab tag htag
    simp only [choose, setTag_eq]
    cases isExperiment name with
    | true => exact { h with toolTags := hswitch h.toolTags }
    | false => exact { h with buildTags := hswitch h.buildTags }

end AgreeOn

/-- **A combination of changes keeps the agreement.** -/
theorem agreeOn_apply {mentioned : List String} {x y : BuildEnv} (h : AgreeOn mentioned x y)
    (combination : Combination) :
    AgreeOn mentioned (x.apply combination) (y.apply combination) := by
  unfold apply
  induction combination.choices generalizing x y with
  | nil => exact h
  | cons choice rest ih => exact ih (agreeOn_choose h choice)

/-! ## 2. Two searches in step -/

section Search

variable {name : String} {header : Header} {x y : BuildEnv}
  (h : AgreeOn (mentionedTags name header) x y)

include h

/-- **Both build a file that mentions these tags, or neither does.** -/
theorem AgreeOn.matchesFile_eq : x.matchesFile name header = y.matchesFile name header :=
  matchesFile_congr (fun _ => h.cgo) fun _ => h.matchesTag_eq

/-- **Both are offered the same changes**, the present value first. -/
theorem AgreeOn.dimensions_eq : x.dimensions name header = y.dimensions name header := by
  have hsystems : x.systems (mentionedTags name header) =
      y.systems (mentionedTags name header) := by
    unfold systems
    rw [h.goos]
  have hmachines : x.machines (mentionedTags name header) =
      y.machines (mentionedTags name header) := by
    unfold machines
    rw [h.goarch]
  have hcgo : x.cgoDimension (mentionedTags name header) header =
      y.cgoDimension (mentionedTags name header) header := by
    unfold cgoDimension
    rw [h.cgo]
  have htags : (switchedTags name header).map x.tagDimension =
      (switchedTags name header).map y.tagDimension := by
    refine List.map_congr_left fun tag htag => ?_
    unfold tagDimension
    rw [h.matchesTag_eq (mem_of_mem_switchedTags htag).1]
  unfold switchedTags at htags
  unfold dimensions
  simp only [hsystems, hmachines, hcgo, htags]

/-- **The two searches go in step.** Both find nothing, or what they find is made by one combination
    of changes and agrees. -/
theorem AgreeOn.fitting : Option.Rel (AgreeOn (mentionedTags name header)) (x.fitting name header)
    (y.fitting name header) := by
  unfold BuildEnv.fitting
  rw [h.matchesFile_eq]
  split
  · exact .some h
  · unfold candidates
    rw [h.dimensions_eq, List.find?_map, List.find?_map]
    -- one list of combinations is searched for the first that builds the file
    have hsame : (fun candidate : BuildEnv => candidate.matchesFile name header) ∘ x.apply =
        (fun candidate : BuildEnv => candidate.matchesFile name header) ∘ y.apply :=
      funext fun combination => (agreeOn_apply h combination).matchesFile_eq
    rw [hsame]
    cases List.find? _ _ with
    | none => exact .none
    | some combination => exact .some (agreeOn_apply h combination)

end Search

/-! ## 3. Resolving -/

/-- What resolving a file comes to from two environments: one failure for both, or environments that
    agree about what the file mentions. -/
inductive SameOutcome (tree : FileTree) (env : BuildEnv) (path : Path) :
    Except Failure BuildEnv → Except Failure BuildEnv → Prop
  | failed (failure : Failure) : SameOutcome tree env path (.error failure) (.error failure)
  | found {name source : String} {header : Header} {x y : BuildEnv}
      (name_eq : path.fileName = some name)
      (source_eq : env.effectiveSource tree path = .ok source)
      (header_eq : Header.scan source.toList = .ok header)
      (agree : AgreeOn (mentionedTags name header) x y) :
      SameOutcome tree env path (.ok x) (.ok y)

/-- Environments that read one source for a file and agree about what it mentions are resolved
    alike. -/
theorem sameOutcome_resolveFor {tree other : FileTree} {x y : BuildEnv} {path : Path}
    (hsource : x.effectiveSource tree path = y.effectiveSource other path)
    (hagree : ∀ name source header, path.fileName = some name →
      x.effectiveSource tree path = .ok source → Header.scan source.toList = .ok header →
      AgreeOn (mentionedTags name header) x y) :
    SameOutcome tree x path (x.resolveFor tree path) (y.resolveFor other path) := by
  unfold resolveFor
  rw [← hsource]
  cases hname : path.fileName with
  | none => exact .failed _
  | some name =>
    cases hread : x.effectiveSource tree path with
    | error failure => exact .failed _
    | ok source =>
      cases hheader : Header.scan source.toList with
      | error cause =>
        simp only [hheader]
        exact .failed _
      | ok header =>
        have h := hagree name source header hname hread hheader
        have hfitting := h.fitting
        simp only [hheader]
        cases hx : x.fitting name header with
        | none =>
          rw [hx] at hfitting
          cases hy : y.fitting name header with
          | none => exact .failed _
          | some b => rw [hy] at hfitting; cases hfitting
        | some a =>
          rw [hx] at hfitting
          cases hy : y.fitting name header with
          | none => rw [hy] at hfitting; cases hfitting
          | some b =>
            rw [hy] at hfitting
            cases hfitting with
            | some hab => exact .found hname hread hheader { hab with }

/-- **Tags that a file does not mention do not matter to it.** The tags of a constraint are those
    that stand in it, each listed once, and no others matter to its meaning; so two environments
    that agree about them and about the tags of the file name build the file alike, and for the same
    source both are resolved in vain or to environments that agree again. -/
theorem resolved_alike (x y : BuildEnv) :
    (∀ c : Constraint, c.tags.Nodup ∧ (∀ tag, tag ∈ c.tags ↔ c.Mentions tag) ∧
      ∀ ok ok' : String → Bool, (∀ tag ∈ c.tags, ok tag = ok' tag) → c.eval ok = c.eval ok') ∧
    (∀ name header tag, tag ∈ mentionedTags name header ↔
      tag ∈ (FileName.target name).tags ∨ ∃ c, header.constraint = some c ∧ tag ∈ c.tags) ∧
    (∀ name header, AgreeOn (mentionedTags name header) x y →
      x.matchesFile name header = y.matchesFile name header) ∧
    ∀ tree other path, x.effectiveSource tree path = y.effectiveSource other path →
      (∀ name source header, path.fileName = some name →
        x.effectiveSource tree path = .ok source → Header.scan source.toList = .ok header →
        AgreeOn (mentionedTags name header) x y) →
      SameOutcome tree x path (x.resolveFor tree path) (y.resolveFor other path) := by
  refine ⟨fun c => ⟨c.nodup_tags, fun _ => Constraint.mem_tags, fun ok ok' h => ?_⟩,
    fun name header tag => ?_, fun _ _ h => h.matchesFile_eq,
    fun _ _ _ hsource hagree => sameOutcome_resolveFor hsource hagree⟩
  · exact Constraint.eval_congr fun tag htag => h tag (Constraint.mem_tags.mpr htag)
  · simp only [mem_mentionedTags, Constraint.mem_tags]

/-- With tags that the source for another architecture does not mention, the environment of the host
    is found the same architecture. -/
theorem resolved_alike_armSource :
    let path : Path := ⟨"/p/y_test.go"⟩
    let x := hostWith path armSource
    let y := { x with
      buildTags := TagSet.parse "race slow", toolTags := TagSet.parse "goexperiment.arenas" }
    AgreeOn (mentionedTags "y_test.go" armHeader) x y ∧
      x.matchesFile "y_test.go" armHeader = y.matchesFile "y_test.go" armHeader ∧
      x.effectiveSource ⟨[], []⟩ path = y.effectiveSource ⟨[], []⟩ path ∧
      SameOutcome ⟨[], []⟩ x path (x.resolveFor ⟨[], []⟩ path) (y.resolveFor ⟨[], []⟩ path) ∧
      ∃ found, y.resolveFor ⟨[], []⟩ path = .ok found ∧ found.goarch = "arm64" := by
  intro path x y
  have hname : path.fileName = some "y_test.go" := by decide +kernel
  have hread : x.effectiveSource ⟨[], []⟩ path = .ok armSource := by decide +kernel
  have hheader : Header.scan armSource.toList = .ok armHeader := by decide +kernel
  have hagree : AgreeOn (mentionedTags "y_test.go" armHeader) x y :=
    ⟨rfl, rfl, rfl, rfl, rfl, by decide +kernel, by decide +kernel⟩
  obtain ⟨-, -, hmatches, hresolve⟩ := resolved_alike x y
  have houtcome := hresolve ⟨[], []⟩ ⟨[], []⟩ path rfl fun name source header hn hs hh => by
    obtain rfl := Option.some.inj (hname.symm.trans hn)
    obtain rfl := Except.ok.inj (hread.symm.trans hs)
    obtain rfl := Except.ok.inj (hheader.symm.trans hh)
    exact hagree
  refine ⟨hagree, hmatches _ _ hagree, rfl, houtcome, ?_⟩
  have hfound : x.resolveFor ⟨[], []⟩ path =
      .ok { x with goarch := "arm64", dir := some ⟨"/p"⟩ } := resolveFor_armSource
  rw [hfound] at houtcome
  generalize y.resolveFor ⟨[], []⟩ path = outcome at houtcome
  cases houtcome with
  | found _ _ _ agree => exact ⟨_, rfl, agree.goarch.symm⟩

end TestScout.BuildEnv

import TestScout.BuildEnv.Resolve
import TestScout.Proofs.FileName
import TestScout.Proofs.Text.Decimal

/-!
# Why a tag holds in an environment

A tag other than `cgo` holds for one of three reasons: the system makes it hold, it is the name of
the architecture, or it holds whatever is built for, as the compiler's name, as a member of a tag
set or as the tag of a release. Main statements:

* `matchesTag_eq`: these are the reasons, and there are no others;
* `isReleaseTag_iff`: a tag of a release is one of the list up to the newest;
* `matchesTag_of_isSystemTag`, `matchesTag_of_isArch`, `matchesTag_of_isFreeTag`: by the kind of the
  tag there is one reason, besides holding anyway;
* `matchesFile_congr`: only the tags that a file mentions, and cgo where the file needs it, decide
  whether the file belongs to the build;
* `nodup_mentionedTags`, `mem_mentionedTags`: a file mentions a tag once, in its name or in its
  constraint.
-/

namespace TestScout

namespace BuildEnv

/-! ## 1. Mentioned tags -/

/-- **A file mentions the tags of its name and of its constraint, and no others.** -/
theorem mem_mentionedTags {name tag : String} {header : Header} :
    tag ∈ mentionedTags name header ↔
      tag ∈ (FileName.target name).tags ∨ ∃ x, header.constraint = some x ∧ x.Mentions tag := by
  unfold mentionedTags
  cases header.constraint with
  | none => simp
  | some x =>
    simp only [List.mem_append, List.mem_filter, Constraint.mem_tags, Option.some.injEq,
      exists_eq_left', List.contains_eq_mem]
    by_cases h : tag ∈ (FileName.target name).tags <;> simp [h]

/-- **No tag is mentioned twice.** -/
theorem nodup_mentionedTags (name : String) (header : Header) :
    (mentionedTags name header).Nodup := by
  unfold mentionedTags
  cases header.constraint with
  | none => exact FileName.nodup_tags_target name
  | some x =>
    rw [List.nodup_append]
    refine ⟨FileName.nodup_tags_target name, (Constraint.nodup_tags x).filter _, ?_⟩
    rintro tag hname other hother rfl
    simp [hname] at hother

/-- A tag that may be switched is mentioned by the constraint, not by the name. -/
theorem mentions_of_isFreeTag {name tag : String} {header : Header}
    (h : tag ∈ mentionedTags name header) (hfree : isFreeTag tag = true) :
    ∃ x, header.constraint = some x ∧ x.Mentions tag := by
  rcases mem_mentionedTags.mp h with hname | hx
  · rcases FileName.isPlatform_of_mem_tags hname with hp | hp <;> simp [isFreeTag, hp] at hfree
  · exact hx

/-! ## 2. Reasons for a tag to hold -/

/-- Whether building for a system makes a tag hold: by its name, by the name of the system that it
    is built like, or as a Unix system. -/
def systemHolds (system tag : String) : Bool :=
  tag = system ||
    if tag = "unix" then Platform.unixOS.contains system else kinSystems.lookup tag = some system

/-- Whether a tag other than `cgo` holds for every platform. -/
def holdsAnyway (env : BuildEnv) (tag : String) : Bool :=
  tag = env.compiler || env.buildTags.contains tag || env.toolTags.contains tag
    || env.isReleaseTag tag

/-- **A tag holds by the system, by the architecture or anyway.** -/
theorem matchesTag_eq (env : BuildEnv) (tag : String) :
    env.matchesTag tag =
      if tag = "cgo" then env.cgo
      else systemHolds env.goos tag || tag = env.goarch || env.holdsAnyway tag := by
  unfold matchesTag systemHolds holdsAnyway isImplied
  split
  · rfl
  · simp only [Bool.or_assoc, Bool.or_left_comm]

/-- **What a file does not mention does not matter to it.** -/
theorem matchesFile_congr {x y : BuildEnv} {name : String} {header : Header}
    (hcgo : header.importsC = true → x.cgo = y.cgo)
    (htags : ∀ tag ∈ mentionedTags name header, x.matchesTag tag = y.matchesTag tag) :
    x.matchesFile name header = y.matchesFile name header := by
  have hname : FileName.holds x.matchesTag name = FileName.holds y.matchesTag name := by
    unfold FileName.holds
    rw [Bool.eq_iff_iff, List.all_eq_true, List.all_eq_true]
    have h : ∀ tag ∈ (FileName.target name).tags, x.matchesTag tag = y.matchesTag tag :=
      fun tag htag => htags tag (mem_mentionedTags.mpr (Or.inl htag))
    exact ⟨fun hx tag htag => h tag htag ▸ hx tag htag,
      fun hy tag htag => (h tag htag).symm ▸ hy tag htag⟩
  have hconstraint : header.constraint.all (·.eval x.matchesTag) =
      header.constraint.all (·.eval y.matchesTag) := by
    cases h : header.constraint with
    | none => rfl
    | some c =>
      exact Constraint.eval_congr fun tag htag =>
        htags tag (mem_mentionedTags.mpr (Or.inr ⟨c, h, htag⟩))
  have himports : (x.cgo || !header.importsC) = (y.cgo || !header.importsC) := by
    cases h : header.importsC with
    | false => simp
    | true => rw [hcgo h]
  unfold matchesFile
  rw [hname, hconstraint, himports]

/-! ## 3. Tags by kind -/

theorem ne_of_isOS_eq_false {tag system : String} (h : Platform.isOS tag = false)
    (hsystem : system ∈ Platform.knownOS) : tag ≠ system := by
  rintro rfl
  rw [Platform.isOS_iff.mpr hsystem] at h
  exact Bool.false_ne_true h.symm

theorem ne_of_isArch_eq_false {tag machine : String} (h : Platform.isArch tag = false)
    (hmachine : machine ∈ Platform.knownArch) : tag ≠ machine := by
  rintro rfl
  rw [Platform.isArch_iff.mpr hmachine] at h
  exact Bool.false_ne_true h.symm

/-- A system makes no tag hold but `unix` and names of systems. -/
theorem systemHolds_eq_false {system tag : String} (hsystem : system ∈ Platform.knownOS)
    (hos : Platform.isOS tag = false) (hunix : tag ≠ "unix") : systemHolds system tag = false := by
  have hne : tag ≠ system := ne_of_isOS_eq_false hos hsystem
  have hkin : kinSystems.lookup tag = none := by
    rw [List.lookup_eq_none_iff]
    intro pair hpair
    have hall : ∀ pair ∈ kinSystems, pair.1 ∈ Platform.knownOS := by decide
    have hother : tag ≠ pair.1 := ne_of_isOS_eq_false hos (hall pair hpair)
    simpa using hother
  simp [systemHolds, hne, hunix, hkin]

/-- A tag that may be switched names no platform and stands for nothing else. -/
theorem of_isFreeTag {tag : String} (h : isFreeTag tag = true) :
    Platform.isOS tag = false ∧ Platform.isArch tag = false ∧ looksLikeRelease tag = false ∧
      tag ≠ "cgo" ∧ tag ≠ "unix" := by
  simp only [isFreeTag, Bool.not_eq_true', Bool.or_eq_false_iff, List.contains_eq_mem,
    decide_eq_false_iff_not, List.mem_cons, not_or] at h
  obtain ⟨⟨⟨hos, harch⟩, hrelease⟩, hcgo, hunix, -⟩ := h
  exact ⟨hos, harch, hrelease, hcgo, hunix⟩

/-- **The tags of releases are those of the list**, up to the newest. -/
theorem isReleaseTag_iff {env : BuildEnv} {tag : String} :
    env.isReleaseTag tag = true ↔ tag ∈ env.releaseTags := by
  unfold isReleaseTag releaseTags after?
  rw [List.mem_map]
  constructor
  · intro h
    split at h
    · cases h
    · split at h
      · cases h
      · rename_i minor hminor
        simp only [Bool.and_eq_true, decide_eq_true_eq, beq_iff_eq] at h
        obtain ⟨⟨hfirst, hnewest⟩, htag⟩ := h
        exact ⟨minor, List.mem_range'_1.mpr ⟨hfirst, by omega⟩, htag⟩
  · intro h
    obtain ⟨minor, hminor, rfl⟩ := h
    obtain ⟨hfirst, hnewest⟩ := List.mem_range'_1.mp hminor
    have hcut : releaseStart.toList.isPrefixOf? (releaseTag minor).toList =
        some (toString minor).toList :=
      List.isPrefixOf?_eq_some_iff_append_eq.mpr String.toList_append.symm
    have hdigits := Decimal.digits?_eq_some_iff.mpr (Decimal.digits_toString minor)
    simp only [hcut, hdigits, Bool.and_eq_true, decide_eq_true_eq, beq_self_eq_true, and_true]
    omega

/-- The tag of a release looks like one. -/
theorem isReleaseTag_eq_false {tag : String} (env : BuildEnv) (h : looksLikeRelease tag = false) :
    env.isReleaseTag tag = false := by
  unfold looksLikeRelease at h
  unfold isReleaseTag
  cases hafter : after? releaseStart.toList tag.toList with
  | none => rfl
  | some digits =>
    rw [hafter] at h
    have hdigits : Decimal.digits? digits = none := by
      unfold Decimal.digits?
      refine if_pos ?_
      cases hempty : digits.isEmpty <;> simp_all
    simp [hdigits]

/-- A tag that may be switched holds for every platform or for none. -/
theorem matchesTag_of_isFreeTag {env : BuildEnv} {tag : String} (h : isFreeTag tag = true)
    (hos : env.goos ∈ Platform.knownOS) (harch : env.goarch ∈ Platform.knownArch) :
    env.matchesTag tag = env.holdsAnyway tag := by
  obtain ⟨hnoOS, hnoArch, -, hcgo, hunix⟩ := of_isFreeTag h
  have hne : tag ≠ env.goarch := ne_of_isArch_eq_false hnoArch harch
  rw [matchesTag_eq, if_neg hcgo, systemHolds_eq_false hos hnoOS hunix]
  simp [hne]

/-- A system's name, and `unix`, names no architecture and is never switched. -/
theorem of_isSystemTag {tag : String} (h : Platform.isOS tag = true ∨ tag = "unix") :
    Platform.isArch tag = false ∧ isFreeTag tag = false ∧ tag ≠ "cgo" := by
  rcases h with hos | rfl
  · refine ⟨FileName.isArch_eq_false_of_isOS hos, by simp [isFreeTag, hos], ?_⟩
    rintro rfl
    exact absurd hos (by decide)
  · decide

/-- What holds anyway aside, a tag of systems holds by the system. -/
theorem matchesTag_of_isSystemTag {env : BuildEnv} {tag : String}
    (h : Platform.isOS tag = true ∨ tag = "unix") (harch : env.goarch ∈ Platform.knownArch)
    (hanyway : env.holdsAnyway tag = false) : env.matchesTag tag = systemHolds env.goos tag := by
  obtain ⟨hnoArch, -, hcgo⟩ := of_isSystemTag h
  have hne : tag ≠ env.goarch := ne_of_isArch_eq_false hnoArch harch
  rw [matchesTag_eq, if_neg hcgo, hanyway]
  simp [hne]

/-- What holds anyway aside, the name of an architecture holds by the architecture. -/
theorem matchesTag_of_isArch {env : BuildEnv} {tag : String} (h : Platform.isArch tag = true)
    (hos : env.goos ∈ Platform.knownOS) (hanyway : env.holdsAnyway tag = false) :
    env.matchesTag tag = decide (tag = env.goarch) := by
  have hnoOS : Platform.isOS tag = false := by
    rw [Bool.eq_false_iff]
    intro hsome
    rw [FileName.isArch_eq_false_of_isOS hsome] at h
    exact Bool.false_ne_true h
  have hcgo : tag ≠ "cgo" := by
    rintro rfl
    exact absurd h (by decide)
  have hunix : tag ≠ "unix" := by
    rintro rfl
    exact absurd h (by decide)
  rw [matchesTag_eq, if_neg hcgo, hanyway, systemHolds_eq_false hos hnoOS hunix]
  simp

end BuildEnv

end TestScout

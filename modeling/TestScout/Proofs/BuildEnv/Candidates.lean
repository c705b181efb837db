import TestScout.Proofs.BuildEnv.Matching
import TestScout.Proofs.Lists

/-!
# What the search for an environment tries

A combination of choices is, in the end, a platform, a value for cgo and a position for every tag
that may be switched. Main statements:

* `mem_candidates`: the environments that the search tries are exactly those of a system and an
  architecture it has listed, with cgo as it is or, where the file asks for it, as it is not, and
  with every switched tag on or off;
* `contains_homeTags_switchTags`, `contains_awayTags_switchTags`: a switch decides whether the tag
  is in the set that it belongs to, and leaves the other set alone;
* `holdsAnyway_switchTags`: so a switched tag holds if it is on, or if it holds whatever its switch
  says.
-/

namespace TestScout

namespace TagSet

/-! ## 1. Sets with one tag changed -/

/-- The set with a tag in it or not, as the switch says. -/
def switch (set : TagSet) (tag : String) (on : Bool) : TagSet :=
  if on then set.insert tag else set.remove tag

/-- **A switch decides about its own tag and about no other.** -/
theorem contains_switch (set : TagSet) (tag : String) (on : Bool) (other : String) :
    (set.switch tag on).contains other = if other = tag then on else set.contains other := by
  rw [Bool.eq_iff_iff, contains_iff]
  by_cases h : other = tag
  · subst h
    cases on <;> simp [switch]
  · cases on <;> simp [switch, h, contains_iff]

end TagSet

namespace BuildEnv

/-! ## 2. Switching tags -/

/-- Whether a tag is switched among the tags of experiments. -/
def isExperiment (tag : String) : Bool :=
  (after? experimentStart.toList tag.toList).isSome

/-- The set in which a tag is switched. -/
def homeTags (env : BuildEnv) (tag : String) : TagSet :=
  if isExperiment tag then env.toolTags else env.buildTags

/-- The set in which a tag is not switched. -/
def awayTags (env : BuildEnv) (tag : String) : TagSet :=
  if isExperiment tag then env.buildTags else env.toolTags

/-- The environment with tags switched one after the other. -/
def switchTags (env : BuildEnv) (switches : List (String × Bool)) : BuildEnv :=
  switches.foldl (fun env switch => env.setTag switch.1 switch.2) env

theorem switchTags_cons (env : BuildEnv) (switch : String × Bool)
    (rest : List (String × Bool)) :
    env.switchTags (switch :: rest) = (env.setTag switch.1 switch.2).switchTags rest := rfl

/-- A tag is switched in one of the two sets. -/
theorem setTag_eq (env : BuildEnv) (name : String) (on : Bool) :
    env.setTag name on =
      if isExperiment name then { env with toolTags := env.toolTags.switch name on }
      else { env with buildTags := env.buildTags.switch name on } := rfl

/-- **Switching changes nothing but the two sets of tags.** -/
theorem switchTags_eq (env : BuildEnv) (switches : List (String × Bool)) :
    env.switchTags switches =
      { env with
        buildTags := (env.switchTags switches).buildTags
        toolTags := (env.switchTags switches).toolTags } := by
  induction switches generalizing env with
  | nil => rfl
  | cons switch rest ih =>
    rw [switchTags_cons, ih, setTag_eq]
    split <;> rfl

section Fields

variable (env : BuildEnv) (switches : List (String × Bool))

@[simp] theorem goos_switchTags : (env.switchTags switches).goos = env.goos := by
  rw [switchTags_eq]

@[simp] theorem goarch_switchTags : (env.switchTags switches).goarch = env.goarch := by
  rw [switchTags_eq]

@[simp] theorem goroot_switchTags : (env.switchTags switches).goroot = env.goroot := by
  rw [switchTags_eq]

@[simp] theorem gopath_switchTags : (env.switchTags switches).gopath = env.gopath := by
  rw [switchTags_eq]

@[simp] theorem cgo_switchTags : (env.switchTags switches).cgo = env.cgo := by
  rw [switchTags_eq]

@[simp] theorem compiler_switchTags : (env.switchTags switches).compiler = env.compiler := by
  rw [switchTags_eq]

@[simp] theorem goMinor_switchTags : (env.switchTags switches).goMinor = env.goMinor := by
  rw [switchTags_eq]

@[simp] theorem overlay_switchTags : (env.switchTags switches).overlay = env.overlay := by
  rw [switchTags_eq]

end Fields

theorem contains_homeTags_setTag (env : BuildEnv) (name : String) (on : Bool) (tag : String) :
    ((env.setTag name on).homeTags tag).contains tag =
      if tag = name then on else (env.homeTags tag).contains tag := by
  rw [setTag_eq]
  unfold homeTags
  by_cases ht : tag = name
  · subst ht
    cases isExperiment tag <;> simp [TagSet.contains_switch]
  · cases isExperiment tag <;> cases isExperiment name <;> simp [ht, TagSet.contains_switch]

theorem contains_awayTags_setTag (env : BuildEnv) (name : String) (on : Bool) (tag : String) :
    ((env.setTag name on).awayTags tag).contains tag = (env.awayTags tag).contains tag := by
  rw [setTag_eq]
  unfold awayTags
  by_cases ht : tag = name
  · subst ht
    cases isExperiment tag <;> simp
  · cases isExperiment tag <;> cases isExperiment name <;> simp [ht, TagSet.contains_switch]

/-- **A switch decides whether the tag is in the set that it is switched in.** The switches are for
    different tags. -/
theorem contains_homeTags_switchTags (env : BuildEnv) (switches : List (String × Bool))
    (tag : String) (hnodup : (switches.map (·.1)).Nodup) :
    ((env.switchTags switches).homeTags tag).contains tag =
      (switches.lookup tag).getD ((env.homeTags tag).contains tag) := by
  induction switches generalizing env with
  | nil => rfl
  | cons switch rest ih =>
    obtain ⟨name, on⟩ := switch
    rw [List.map_cons, List.nodup_cons] at hnodup
    rw [switchTags_cons, ih _ hnodup.2, contains_homeTags_setTag]
    by_cases ht : tag = name
    · subst ht
      have hnone : rest.lookup tag = none := by
        rw [List.lookup_eq_none_iff]
        intro other hother
        have hmem : other.1 ∈ rest.map (·.1) := List.mem_map_of_mem hother
        have hne : tag ≠ other.1 := fun h => hnodup.1 (h ▸ hmem)
        simpa using hne
      simp [hnone]
    · have hb : (tag == name) = false := by simpa using ht
      simp [List.lookup_cons, hb, ht]

/-- **No switch touches the other set.** -/
theorem contains_awayTags_switchTags (env : BuildEnv) (switches : List (String × Bool))
    (tag : String) :
    ((env.switchTags switches).awayTags tag).contains tag = (env.awayTags tag).contains tag := by
  induction switches generalizing env with
  | nil => rfl
  | cons switch rest ih => rw [switchTags_cons, ih, contains_awayTags_setTag]

/-- Whether a tag holds for every platform whatever its switch says. -/
def holdsFixed (env : BuildEnv) (tag : String) : Bool :=
  tag = env.compiler || (env.awayTags tag).contains tag || env.isReleaseTag tag

/-- A tag holds anyway by its switch or whatever its switch says. -/
theorem holdsAnyway_eq (env : BuildEnv) (tag : String) :
    env.holdsAnyway tag = ((env.homeTags tag).contains tag || env.holdsFixed tag) := by
  unfold holdsAnyway holdsFixed homeTags awayTags
  cases isExperiment tag <;> simp [Bool.or_assoc, Bool.or_left_comm, Bool.or_comm]

/-- **What holds for every platform after switching.** -/
theorem holdsAnyway_switchTags (env : BuildEnv) (switches : List (String × Bool)) (tag : String)
    (hnodup : (switches.map (·.1)).Nodup) :
    (env.switchTags switches).holdsAnyway tag =
      ((switches.lookup tag).getD ((env.homeTags tag).contains tag) || env.holdsFixed tag) := by
  rw [holdsAnyway_eq, contains_homeTags_switchTags _ _ _ hnodup]
  unfold holdsFixed isReleaseTag
  rw [contains_awayTags_switchTags, compiler_switchTags, goMinor_switchTags]

/-! ## 3. Combinations -/

/-- **A combination takes one choice of every dimension, and every such list is taken.** -/
theorem exists_combination_iff {dimensions : List Dimension} {choices : List Choice} :
    (∃ combination ∈ combinations dimensions, combination.choices = choices) ↔
      List.Forall₂ (fun choice dimension => choice ∈ dimension) choices dimensions := by
  induction dimensions generalizing choices with
  | nil => simp [combinations, eq_comm]
  | cons dimension rest ih =>
    cases dimension with
    | nil => cases choices <;> simp [combinations]
    | cons present others =>
      cases choices with
      | nil =>
        refine iff_of_false ?_ (fun h => by cases h)
        intro h
        obtain ⟨combination, h, hnil⟩ := h
        simp only [combinations, List.mem_append, List.mem_map, List.mem_flatMap] at h
        rcases h with ⟨tail, -, rfl⟩ | ⟨other, -, tail, -, rfl⟩ <;> simp at hnil
      | cons choice more =>
        rw [List.forall₂_cons, ← ih]
        simp only [combinations, List.mem_append, List.mem_map, List.mem_flatMap, List.mem_cons]
        constructor
        · intro h
          obtain ⟨_, ⟨tail, htail, rfl⟩ | ⟨other, hother, tail, htail, rfl⟩, h⟩ := h
          · obtain ⟨rfl, rfl⟩ := List.cons.inj h
            exact ⟨Or.inl rfl, tail, htail, rfl⟩
          · obtain ⟨rfl, rfl⟩ := List.cons.inj h
            exact ⟨Or.inr hother, tail, htail, rfl⟩
        · intro h
          obtain ⟨rfl | hother, tail, htail, rfl⟩ := h
          · exact ⟨_, Or.inl ⟨tail, htail, rfl⟩, rfl⟩
          · exact ⟨_, Or.inr ⟨choice, hother, tail, htail, rfl⟩, rfl⟩

/-- One choice for each of several tags puts every one of them on or off. -/
theorem forall₂_tagDimension_iff {env : BuildEnv} {tags : List String} {choices : List Choice} :
    List.Forall₂ (fun choice dimension => choice ∈ dimension) choices
        (tags.map env.tagDimension) ↔
      ∃ switches : List (String × Bool), switches.map (·.1) = tags ∧
        choices = switches.map fun switch => .tag switch.1 switch.2 := by
  induction tags generalizing choices with
  | nil =>
    constructor
    · intro h
      cases h
      exact ⟨[], rfl, rfl⟩
    · intro h
      obtain ⟨switches, h, rfl⟩ := h
      obtain rfl := List.map_eq_nil_iff.mp h
      exact .nil
  | cons tag rest ih =>
    constructor
    · intro h
      obtain ⟨choice, more, hchoice, hmore, rfl⟩ := List.forall₂_cons_right_iff.mp h
      obtain ⟨switches, hmap, rfl⟩ := ih.mp hmore
      have hc : choice = .tag tag (env.matchesTag tag) ∨ choice = .tag tag !env.matchesTag tag := by
        simpa [tagDimension] using hchoice
      rcases hc with rfl | rfl
      · exact ⟨(tag, env.matchesTag tag) :: switches, by simp [hmap], rfl⟩
      · exact ⟨(tag, !env.matchesTag tag) :: switches, by simp [hmap], rfl⟩
    · intro h
      obtain ⟨switches, hmap, rfl⟩ := h
      cases switches with
      | nil => simp at hmap
      | cons switch others =>
        obtain ⟨name, on⟩ := switch
        obtain ⟨rfl, hothers⟩ := List.cons.inj hmap
        refine .cons ?_ (ih.mpr ⟨others, hothers, rfl⟩)
        unfold tagDimension
        cases on <;> cases env.matchesTag name <;> simp

/-! ## 4. Candidates -/

/-- The environment for another platform. -/
def onPlatform (env : BuildEnv) (system machine : String) (cgo : Bool) : BuildEnv :=
  { env with goos := system, goarch := machine, cgo := cgo }

/-- Whether the search tries both values of cgo for a file. -/
def asksCgo (name : String) (header : Header) : Bool :=
  header.importsC || (mentionedTags name header).contains "cgo"

/-- The tags that the search switches for a file. -/
def switchedTags (name : String) (header : Header) : List String :=
  ((mentionedTags name header).filter isFreeTag).take freeTagLimit

theorem nodup_switchedTags (name : String) (header : Header) : (switchedTags name header).Nodup :=
  ((nodup_mentionedTags name header).filter _).sublist (List.take_sublist _ _)

theorem mem_of_mem_switchedTags {name tag : String} {header : Header}
    (h : tag ∈ switchedTags name header) :
    tag ∈ mentionedTags name header ∧ isFreeTag tag = true :=
  List.mem_filter.mp (List.mem_of_mem_take h)

/-- Choices of tags are carried out as switches. -/
theorem foldl_choose_tags (env : BuildEnv) (switches : List (String × Bool)) :
    (switches.map fun switch => Choice.tag switch.1 switch.2).foldl choose env =
      env.switchTags switches := by
  rw [List.foldl_map]
  rfl

/-- The choice of cgo, where there is one. -/
theorem forall₂_cgoDimension_iff {env : BuildEnv} {name : String} {header : Header}
    {choices : List Choice} :
    List.Forall₂ (fun choice dimension => choice ∈ dimension) choices
        (env.cgoDimension (mentionedTags name header) header) ↔
      if asksCgo name header then ∃ on, choices = [.cgo on] else choices = [] := by
  unfold cgoDimension asksCgo
  split
  · constructor
    · intro h
      obtain ⟨choice, more, hchoice, hmore, rfl⟩ := List.forall₂_cons_right_iff.mp h
      obtain rfl := List.forall₂_nil_right_iff.mp hmore
      have hc : choice = .cgo env.cgo ∨ choice = .cgo !env.cgo := by simpa using hchoice
      rcases hc with rfl | rfl
      · exact ⟨_, rfl⟩
      · exact ⟨_, rfl⟩
    · intro h
      obtain ⟨on, rfl⟩ := h
      refine .cons ?_ .nil
      cases on <;> cases env.cgo <;> simp
  · exact List.forall₂_nil_right_iff

/-- The choices for a platform, for cgo where the file asks for it, and for tags. -/
def choicesOf (name : String) (header : Header) (system machine : String) (cgo : Bool)
    (switches : List (String × Bool)) : List Choice :=
  .goos system :: .goarch machine ::
    ((if asksCgo name header then [.cgo cgo] else [])
      ++ switches.map fun switch => .tag switch.1 switch.2)

/-- **The choices that the search has for a file.** -/
theorem forall₂_dimensions_iff {env : BuildEnv} {name : String} {header : Header}
    {choices : List Choice} :
    List.Forall₂ (fun choice dimension => choice ∈ dimension) choices
        (env.dimensions name header) ↔
      ∃ system ∈ env.systems (mentionedTags name header),
        ∃ machine ∈ env.machines (mentionedTags name header),
          ∃ cgo, (cgo = env.cgo ∨ asksCgo name header = true) ∧
            ∃ switches : List (String × Bool), switches.map (·.1) = switchedTags name header ∧
              choices = choicesOf name header system machine cgo switches := by
  have hdims : env.dimensions name header =
      (env.systems (mentionedTags name header)).map .goos ::
        (env.machines (mentionedTags name header)).map .goarch ::
          (env.cgoDimension (mentionedTags name header) header ++
            (switchedTags name header).map env.tagDimension) := rfl
  rw [hdims]
  constructor
  · intro h
    obtain ⟨first, behind, hfirst, hbehind, rfl⟩ := List.forall₂_cons_right_iff.mp h
    obtain ⟨second, others, hsecond, hothers, rfl⟩ := List.forall₂_cons_right_iff.mp hbehind
    obtain ⟨system, hsystem, rfl⟩ := List.mem_map.mp hfirst
    obtain ⟨machine, hmachine, rfl⟩ := List.mem_map.mp hsecond
    obtain ⟨third, fourth, rfl, hthird, hfourth⟩ := forall₂_append_right_iff.mp hothers
    obtain ⟨switches, hswitches, rfl⟩ := forall₂_tagDimension_iff.mp hfourth
    rw [forall₂_cgoDimension_iff] at hthird
    refine ⟨system, hsystem, machine, hmachine, ?_⟩
    unfold choicesOf
    split at hthird
    · rename_i hasks
      obtain ⟨on, rfl⟩ := hthird
      exact ⟨on, Or.inr hasks, switches, hswitches, by rw [if_pos hasks]⟩
    · rename_i hasks
      subst hthird
      exact ⟨env.cgo, Or.inl rfl, switches, hswitches, by rw [if_neg hasks]⟩
  · intro h
    obtain ⟨system, hsystem, machine, hmachine, cgo, -, switches, hswitches, rfl⟩ := h
    have htags : List.Forall₂ (fun choice dimension => choice ∈ dimension)
        (switches.map fun switch => Choice.tag switch.1 switch.2)
        ((switchedTags name header).map env.tagDimension) :=
      forall₂_tagDimension_iff.mpr ⟨switches, hswitches, rfl⟩
    have hcgoChoice : List.Forall₂ (fun choice dimension => choice ∈ dimension)
        (if asksCgo name header then [Choice.cgo cgo] else [])
        (env.cgoDimension (mentionedTags name header) header) := by
      rw [forall₂_cgoDimension_iff]
      split
      · exact ⟨cgo, rfl⟩
      · rfl
    exact .cons (List.mem_map_of_mem hsystem) (.cons (List.mem_map_of_mem hmachine)
      (forall₂_append_right_iff.mpr ⟨_, _, rfl, hcgoChoice, htags⟩))

/-- Carrying out choices for a file changes the platform and cgo and switches the tags. -/
theorem foldl_choose_choicesOf {env : BuildEnv} {name : String} {header : Header}
    (system machine : String) {cgo : Bool} (switches : List (String × Bool))
    (hcgo : cgo = env.cgo ∨ asksCgo name header = true) :
    (choicesOf name header system machine cgo switches).foldl choose env =
      (env.onPlatform system machine cgo).switchTags switches := by
  unfold choicesOf
  rw [List.foldl_cons, List.foldl_cons, List.foldl_append, foldl_choose_tags]
  split
  · rfl
  · rename_i hasks
    obtain rfl := hcgo.resolve_right hasks
    rfl

/-- **What the search tries for a file.** -/
theorem mem_candidates {env candidate : BuildEnv} {name : String} {header : Header} :
    candidate ∈ env.candidates name header ↔
      ∃ system ∈ env.systems (mentionedTags name header),
        ∃ machine ∈ env.machines (mentionedTags name header),
          ∃ cgo, (cgo = env.cgo ∨ asksCgo name header = true) ∧
            ∃ switches : List (String × Bool), switches.map (·.1) = switchedTags name header ∧
              candidate = (env.onPlatform system machine cgo).switchTags switches := by
  have hmem : candidate ∈ env.candidates name header ↔
      ∃ choices, List.Forall₂ (fun choice dimension => choice ∈ dimension) choices
        (env.dimensions name header) ∧ candidate = choices.foldl choose env := by
    unfold candidates
    simp only [List.mem_map, List.mem_mergeSort, ← exists_combination_iff]
    constructor
    · intro h
      obtain ⟨combination, h, rfl⟩ := h
      exact ⟨combination.choices, ⟨combination, h, rfl⟩, rfl⟩
    · intro h
      obtain ⟨_, ⟨combination, h, rfl⟩, rfl⟩ := h
      exact ⟨combination, h, rfl⟩
  rw [hmem]
  constructor
  · intro h
    obtain ⟨choices, h, rfl⟩ := h
    obtain ⟨system, hsystem, machine, hmachine, cgo, hcgo, switches, hswitches, rfl⟩ :=
      forall₂_dimensions_iff.mp h
    exact ⟨system, hsystem, machine, hmachine, cgo, hcgo, switches, hswitches,
      foldl_choose_choicesOf system machine switches hcgo⟩
  · intro h
    obtain ⟨system, hsystem, machine, hmachine, cgo, hcgo, switches, hswitches, rfl⟩ := h
    exact ⟨_, forall₂_dimensions_iff.mpr
      ⟨system, hsystem, machine, hmachine, cgo, hcgo, switches, hswitches, rfl⟩,
      (foldl_choose_choicesOf system machine switches hcgo).symm⟩

end BuildEnv

end TestScout

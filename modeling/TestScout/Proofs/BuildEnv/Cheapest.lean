import TestScout.Proofs.BuildEnv.Resolution

/-!
# The cheapest change of an environment

A change of an environment chooses a platform, cgo and a position for every tag that is switched. It
costs as many choices as are not the present ones. Main statements:

* `Offers`: the changes among which the search chooses for a file, by what the file mentions;
* `exists_combination_iff_offers`: the combinations of the search are these changes, each with its
  cost;
* `exists_isCheapest_of_fitting`, `exists_fitting_iff`: the search finds one of the cheapest changes
  that build the file, if one of them does;
* `cost_eq_zero_iff`, `matchesTag_presentChange`: exactly one change costs nothing, and it makes no
  tag come to hold or cease to;
* `findsCheapest_of_scan`: so what is found for a file is the environment with a cheapest change.
-/

namespace TestScout.BuildEnv

/-! ## 1. What a combination costs -/

/-- A dimension offers a value first and does not offer it again. -/
def StartsWith (present : Choice) (dimension : Dimension) : Prop :=
  ∃ others, dimension = present :: others ∧ present ∉ others

/-- How many choices are not the present ones. -/
def changed : List Choice → List Choice → Nat
  | choice :: choices, present :: presents =>
    (if choice = present then 0 else 1) + changed choices presents
  | _, _ => 0

/-- **A combination costs what it changes.** -/
theorem cost_eq_changed {presents : List Choice} {dimensions : List Dimension}
    (hpresents : List.Forall₂ StartsWith presents dimensions) {combination : Combination}
    (h : combination ∈ combinations dimensions) :
    combination.cost = changed combination.choices presents := by
  induction hpresents generalizing combination with
  | nil =>
    obtain rfl := List.mem_singleton.mp h
    rfl
  | @cons present dimension presents dimensions hdimension _ ih =>
    obtain ⟨others, rfl, honce⟩ := hdimension
    simp only [combinations, List.mem_append, List.mem_map, List.mem_flatMap] at h
    rcases h with ⟨tail, htail, rfl⟩ | ⟨choice, hchoice, tail, htail, rfl⟩
    · simp only [changed, if_true, ih htail, Nat.zero_add]
    · have hne : choice ≠ present := fun e => honce (e ▸ hchoice)
      simp only [changed, if_neg hne, ih htail, Nat.add_comm]

theorem changed_append {xs ys : List Choice} (h : xs.length = ys.length) (xs' ys' : List Choice) :
    changed (xs ++ xs') (ys ++ ys') = changed xs ys + changed xs' ys' := by
  induction xs generalizing ys with
  | nil =>
    obtain rfl := List.length_eq_zero_iff.mp h.symm
    simp [changed]
  | cons x xs ih =>
    cases ys with
    | nil => simp at h
    | cons y ys =>
      simp only [List.cons_append, changed, ih (by simpa using h), Nat.add_assoc]

/-- Without repetitions a list offers its first value once. -/
theorem startsWith_eraseDups (make : String → Choice)
    (hmake : ∀ x y, make x = make y → x = y) (present : String) (others : List String) :
    StartsWith (make present) ((present :: others).eraseDups.map make) := by
  rw [List.eraseDups_cons, List.map_cons]
  refine ⟨_, rfl, fun hmem => ?_⟩
  obtain ⟨other, hother, heq⟩ := List.mem_map.mp hmem
  obtain rfl := hmake other present heq
  simp at hother

/-- The position in which a tag that is switched stays as it is. -/
def presentSwitches (env : BuildEnv) (name : String) (header : Header) : List (String × Bool) :=
  (switchedTags name header).map fun tag => (tag, env.matchesTag tag)

/-- **Every dimension of the search starts with the present value.** -/
theorem startsWith_dimensions (env : BuildEnv) (name : String) (header : Header) :
    List.Forall₂ StartsWith
      (choicesOf name header env.goos env.goarch env.cgo (env.presentSwitches name header))
      (env.dimensions name header) := by
  refine .cons (startsWith_eraseDups .goos (fun _ _ => Choice.goos.inj) _ _)
    (.cons (startsWith_eraseDups .goarch (fun _ _ => Choice.goarch.inj) _ _)
      (List.rel_append ?_ ?_))
  · unfold cgoDimension asksCgo
    split
    · exact .cons ⟨_, rfl, by cases env.cgo <;> simp⟩ .nil
    · exact .nil
  · unfold presentSwitches
    rw [List.map_map, List.forall₂_map_left_iff, List.forall₂_map_right_iff]
    refine List.forall₂_same.mpr fun tag _ => ?_
    exact ⟨_, rfl, by simp⟩

/-! ## 2. Changes -/

/-- A platform, cgo and positions for tags. -/
structure Change where
  goos : String
  goarch : String
  cgo : Bool
  tags : List (String × Bool)
deriving DecidableEq, Repr

namespace Change

/-- The environment with a change. -/
def apply (change : Change) (env : BuildEnv) : BuildEnv :=
  (env.onPlatform change.goos change.goarch change.cgo).switchTags change.tags

/-- How many choices of a change are not the present ones. -/
def cost (change : Change) (env : BuildEnv) : Nat :=
  (if change.goos = env.goos then 0 else 1) + (if change.goarch = env.goarch then 0 else 1)
    + (if change.cgo = env.cgo then 0 else 1)
    + change.tags.countP fun switch => switch.2 != env.matchesTag switch.1

end Change

/-- The first of some values that is neither mentioned nor present. -/
def IsFirstFresh (values mentioned : List String) (present value : String) : Prop :=
  ∃ before behind, values = before ++ value :: behind ∧ value ∉ mentioned ∧ value ≠ present ∧
    ∀ other ∈ before, other ∈ mentioned ∨ other = present

/-- The changes among which the search chooses for a file. -/
structure Offers (env : BuildEnv) (name : String) (header : Header) (change : Change) : Prop where
  /-- The present system, one that is mentioned, Linux for Unix, or one of the usual others. -/
  goos : change.goos = env.goos ∨
    change.goos ∈ mentionedTags name header ∧ Platform.isOS change.goos = true ∨
    change.goos = "linux" ∧ "unix" ∈ mentionedTags name header ∨
    IsFirstFresh otherSystems (mentionedTags name header) env.goos change.goos
  /-- The present architecture, one that is mentioned, or one of the usual others. -/
  goarch : change.goarch = env.goarch ∨
    change.goarch ∈ mentionedTags name header ∧ Platform.isArch change.goarch = true ∨
    IsFirstFresh otherMachines (mentionedTags name header) env.goarch change.goarch
  /-- Only a file that uses or mentions cgo switches it. -/
  cgo : change.cgo = env.cgo ∨ header.importsC = true ∨ "cgo" ∈ mentionedTags name header
  /-- Every one of the first mentioned tags that may be switched has a position. -/
  tags : change.tags.map (·.1) = ((mentionedTags name header).filter isFreeTag).take freeTagLimit

theorem freshValue_eq_some_iff {values mentioned : List String} {present value : String} :
    freshValue values mentioned present = some value ↔
      IsFirstFresh values mentioned present value := by
  unfold freshValue IsFirstFresh
  rw [List.find?_eq_some_iff_append]
  constructor
  · intro h
    obtain ⟨hvalue, before, behind, rfl, hbefore⟩ := h
    have hfresh : value ∉ mentioned ∧ value ≠ present := by simpa using hvalue
    refine ⟨before, behind, rfl, hfresh.1, hfresh.2, fun other hother => ?_⟩
    by_cases hmentioned : other ∈ mentioned
    · exact Or.inl hmentioned
    · exact Or.inr (by simpa [hmentioned] using hbefore other hother)
  · intro h
    obtain ⟨before, behind, rfl, hmentioned, hpresent, hbefore⟩ := h
    refine ⟨by simp [hmentioned, hpresent], before, behind, rfl, fun other hother => ?_⟩
    rcases hbefore other hother with h | rfl <;> simp_all

theorem mem_systems_iff {env : BuildEnv} {mentioned : List String} {system : String} :
    system ∈ env.systems mentioned ↔ system = env.goos ∨
      system ∈ mentioned ∧ Platform.isOS system = true ∨
      system = "linux" ∧ "unix" ∈ mentioned ∨
      IsFirstFresh otherSystems mentioned env.goos system := by
  have hunix : system ∈ (if mentioned.contains "unix" then ["linux"] else []) ↔
      system = "linux" ∧ "unix" ∈ mentioned := by
    by_cases h : "unix" ∈ mentioned <;> simp [h]
  unfold systems
  rw [List.mem_eraseDups, List.mem_append, List.mem_append, hunix, List.mem_cons, List.mem_filter,
    Option.mem_toList, freshValue_eq_some_iff, or_assoc, or_assoc]

theorem mem_machines_iff {env : BuildEnv} {mentioned : List String} {machine : String} :
    machine ∈ env.machines mentioned ↔ machine = env.goarch ∨
      machine ∈ mentioned ∧ Platform.isArch machine = true ∨
      IsFirstFresh otherMachines mentioned env.goarch machine := by
  unfold machines
  rw [List.mem_eraseDups, List.mem_append, List.mem_cons, List.mem_filter, Option.mem_toList,
    freshValue_eq_some_iff, or_assoc]

theorem offers_iff {env : BuildEnv} {name : String} {header : Header} {change : Change} :
    env.Offers name header change ↔
      change.goos ∈ env.systems (mentionedTags name header) ∧
        change.goarch ∈ env.machines (mentionedTags name header) ∧
        (change.cgo = env.cgo ∨ asksCgo name header = true) ∧
        change.tags.map (·.1) = switchedTags name header := by
  have hasks : asksCgo name header = true ↔
      header.importsC = true ∨ "cgo" ∈ mentionedTags name header := by
    simp [asksCgo]
  rw [mem_systems_iff, mem_machines_iff, hasks]
  constructor
  · intro h
    obtain ⟨hgoos, hgoarch, hcgo, htags⟩ := h
    exact ⟨hgoos, hgoarch, hcgo, htags⟩
  · intro h
    obtain ⟨hgoos, hgoarch, hcgo, htags⟩ := h
    exact ⟨hgoos, hgoarch, hcgo, htags⟩

/-- Switches that do not leave a tag as it is are changes. -/
theorem changed_switches (env : BuildEnv) (switches : List (String × Bool)) :
    changed (switches.map fun switch => .tag switch.1 switch.2)
        ((switches.map (·.1)).map fun tag => .tag tag (env.matchesTag tag)) =
      switches.countP fun switch => switch.2 != env.matchesTag switch.1 := by
  induction switches with
  | nil => rfl
  | cons switch rest ih =>
    simp only [List.map_cons, changed, ih, List.countP_cons, Choice.tag.injEq, true_and]
    by_cases h : switch.2 = env.matchesTag switch.1 <;> simp [h, Nat.add_comm]

/-- The choices for a change cost what the change costs. -/
theorem changed_choicesOf {env : BuildEnv} {name : String} {header : Header} {change : Change}
    (h : env.Offers name header change) :
    changed (choicesOf name header change.goos change.goarch change.cgo change.tags)
        (choicesOf name header env.goos env.goarch env.cgo (env.presentSwitches name header)) =
      change.cost env := by
  obtain ⟨-, -, hcgo, htags⟩ := offers_iff.mp h
  have hswitches : (env.presentSwitches name header).map (fun s => Choice.tag s.1 s.2) =
      (change.tags.map (·.1)).map fun tag => .tag tag (env.matchesTag tag) := by
    rw [htags]
    exact List.map_map
  have hcgoCost : changed (if asksCgo name header then [.cgo change.cgo] else [])
      (if asksCgo name header then [.cgo env.cgo] else []) =
        if change.cgo = env.cgo then 0 else 1 := by
    split
    · simp [changed]
    · rename_i hasks
      rw [if_pos (hcgo.resolve_right hasks)]
      rfl
  unfold choicesOf Change.cost
  rw [changed, changed, changed_append (by split <;> rfl), hswitches, changed_switches, hcgoCost]
  simp only [Choice.goos.injEq, Choice.goarch.injEq, Nat.add_assoc]

/-- **The combinations of the search are the changes that it offers, each with its cost.** -/
theorem exists_combination_iff_offers {env found : BuildEnv} {name : String} {header : Header}
    {cost : Nat} :
    (∃ combination ∈ combinations (env.dimensions name header),
        env.apply combination = found ∧ combination.cost = cost) ↔
      ∃ change, env.Offers name header change ∧ change.apply env = found ∧
        change.cost env = cost := by
  have hcost : ∀ combination ∈ combinations (env.dimensions name header), ∀ change,
      env.Offers name header change →
      combination.choices =
        choicesOf name header change.goos change.goarch change.cgo change.tags →
      combination.cost = change.cost env := by
    intro combination hmem change hoffers hchoices
    rw [cost_eq_changed (startsWith_dimensions env name header) hmem, hchoices,
      changed_choicesOf hoffers]
  constructor
  · intro h
    obtain ⟨combination, hmem, rfl, rfl⟩ := h
    obtain ⟨system, hsystem, machine, hmachine, cgo, hcgo, switches, hswitches, hchoices⟩ :=
      forall₂_dimensions_iff.mp (exists_combination_iff.mp ⟨combination, hmem, rfl⟩)
    let change : Change := ⟨system, machine, cgo, switches⟩
    have hoffers : env.Offers name header change :=
      offers_iff.mpr ⟨hsystem, hmachine, hcgo, hswitches⟩
    refine ⟨change, hoffers, ?_, (hcost combination hmem change hoffers hchoices).symm⟩
    unfold BuildEnv.apply
    rw [hchoices, foldl_choose_choicesOf system machine switches hcgo]
    rfl
  · intro h
    obtain ⟨change, hoffers, rfl, rfl⟩ := h
    obtain ⟨hsystem, hmachine, hcgo, hswitches⟩ := offers_iff.mp hoffers
    obtain ⟨combination, hmem, hchoices⟩ := exists_combination_iff.mpr
      (forall₂_dimensions_iff.mpr
        ⟨_, hsystem, _, hmachine, _, hcgo, _, hswitches, rfl⟩)
    refine ⟨combination, hmem, ?_, hcost combination hmem change hoffers hchoices⟩
    unfold BuildEnv.apply
    rw [hchoices, foldl_choose_choicesOf _ _ _ hcgo]
    rfl

/-! ## 3. The search -/

/-- The first combination of its kind in the order of cost is a cheapest one. -/
theorem least_of_find?_mergeSort {combinations : List Combination} {p : Combination → Bool}
    {found : Combination}
    (h : (combinations.mergeSort fun x y => x.cost ≤ y.cost).find? p = some found) :
    found ∈ combinations ∧ p found = true ∧
      ∀ other ∈ combinations, p other = true → found.cost ≤ other.cost := by
  obtain ⟨hfound, before, behind, heq, hbefore⟩ := List.find?_eq_some_iff_append.mp h
  have hsorted : (combinations.mergeSort fun x y => x.cost ≤ y.cost).Pairwise
      fun x y => decide (x.cost ≤ y.cost) = true :=
    List.pairwise_mergeSort (fun x y z hxy hyz => by simp only [decide_eq_true_eq] at *; omega)
      (fun x y => by simp only [Bool.or_eq_true, decide_eq_true_eq]; omega) combinations
  refine ⟨List.mem_mergeSort.mp (List.mem_of_find?_eq_some h), hfound, fun other hother hp => ?_⟩
  have hplace : other ∈ combinations.mergeSort fun x y => x.cost ≤ y.cost :=
    List.mem_mergeSort.mpr hother
  rw [heq] at hplace hsorted
  -- what stands before does not fit, and what stands behind costs no less
  rcases List.mem_append.mp hplace with hmem | hmem
  · have hnot := hbefore other hmem
    rw [hp] at hnot
    cases hnot
  · rcases List.mem_cons.mp hmem with rfl | hlater
    · exact Nat.le_refl _
    · have hpair := (List.pairwise_cons.mp (List.pairwise_append.mp hsorted).2.1).1 other hlater
      simpa using hpair

/-- A change that is offered and builds the file, such that no other one is cheaper. -/
structure IsCheapest (env : BuildEnv) (name : String) (header : Header) (change : Change) :
    Prop where
  offered : env.Offers name header change
  builds : (change.apply env).matchesFile name header = true
  least : ∀ other, env.Offers name header other →
    (other.apply env).matchesFile name header = true → change.cost env ≤ other.cost env

section Search

variable {env : BuildEnv} {name : String} {header : Header}
  (hnot : env.matchesFile name header = false)

include hnot

/-- **The search finds one of the cheapest changes that build the file.** -/
theorem exists_isCheapest_of_fitting {found : BuildEnv}
    (h : env.fitting name header = some found) :
    ∃ change, env.IsCheapest name header change ∧ found = change.apply env := by
  unfold fitting candidates at h
  rw [hnot, if_neg (by decide), List.find?_map] at h
  obtain ⟨combination, hfind, rfl⟩ := Option.map_eq_some_iff.mp h
  obtain ⟨hmem, hbuilds, hleast⟩ := least_of_find?_mergeSort hfind
  obtain ⟨change, hoffers, happly, hcost⟩ :=
    exists_combination_iff_offers.mp ⟨combination, hmem, rfl, rfl⟩
  refine ⟨change, ⟨hoffers, ?_, fun other hother hmatches => ?_⟩, happly.symm⟩
  · rw [happly]
    exact hbuilds
  · obtain ⟨candidate, hcandidate, hsame, hprice⟩ :=
      exists_combination_iff_offers.mpr ⟨other, hother, rfl, rfl⟩
    rw [hcost, ← hprice]
    exact hleast candidate hcandidate (by rw [Function.comp_apply, hsame]; exact hmatches)

/-- **The search finds something exactly if a change that it offers builds the file.** -/
theorem exists_fitting_iff :
    (∃ found, env.fitting name header = some found) ↔
      ∃ change, env.Offers name header change ∧
        (change.apply env).matchesFile name header = true := by
  constructor
  · intro h
    obtain ⟨found, h⟩ := h
    obtain ⟨change, hcheapest, -⟩ := exists_isCheapest_of_fitting hnot h
    exact ⟨change, hcheapest.offered, hcheapest.builds⟩
  · intro h
    obtain ⟨change, hoffers, hbuilds⟩ := h
    obtain ⟨combination, hmem, hsame, -⟩ :=
      exists_combination_iff_offers.mpr ⟨change, hoffers, rfl, rfl⟩
    have hcandidate : env.apply combination ∈ env.candidates name header :=
      List.mem_map_of_mem (List.mem_mergeSort.mpr hmem)
    rw [← Option.isSome_iff_exists]
    unfold fitting
    rw [hnot, if_neg (by decide), List.find?_isSome]
    exact ⟨_, hcandidate, by rw [hsame]; exact hbuilds⟩

end Search

/-! ## 4. The change that costs nothing -/

/-- The change that leaves everything as it is. -/
def presentChange (env : BuildEnv) (name : String) (header : Header) : Change :=
  ⟨env.goos, env.goarch, env.cgo, env.presentSwitches name header⟩

theorem offers_presentChange (env : BuildEnv) (name : String) (header : Header) :
    env.Offers name header (env.presentChange name header) where
  goos := Or.inl rfl
  goarch := Or.inl rfl
  cgo := Or.inl rfl
  tags := by
    unfold presentChange presentSwitches
    rw [List.map_map]
    exact List.map_id _

/-- **Only the change that leaves everything as it is costs nothing.** -/
theorem cost_eq_zero_iff {env : BuildEnv} {name : String} {header : Header} {change : Change}
    (h : env.Offers name header change) :
    change.cost env = 0 ↔ change = env.presentChange name header := by
  have hpart : ∀ {p : Prop} [Decidable p], (if p then 0 else 1) = 0 ↔ p := by
    intro p _
    by_cases hp : p <;> simp [hp]
  have htags : change.tags.countP (fun switch => switch.2 != env.matchesTag switch.1) = 0 ↔
      change.tags = env.presentSwitches name header := by
    have hnames : env.presentSwitches name header =
        change.tags.map fun switch => (switch.1, env.matchesTag switch.1) := by
      unfold presentSwitches switchedTags
      rw [← h.tags, List.map_map]
      rfl
    rw [hnames, List.countP_eq_zero]
    constructor
    · intro hall
      refine (List.map_id' _).symm.trans (List.map_congr_left fun switch hswitch => ?_)
      have hsame : switch.2 = env.matchesTag switch.1 := by simpa using hall switch hswitch
      rw [← hsame]
    · intro heq switch hswitch
      rw [heq] at hswitch
      obtain ⟨_, -, rfl⟩ := List.mem_map.mp hswitch
      simp
  unfold Change.cost
  rw [Nat.add_eq_zero_iff, Nat.add_eq_zero_iff, Nat.add_eq_zero_iff, hpart, hpart, hpart, htags]
  constructor
  · intro h
    obtain ⟨⟨⟨hgoos, hgoarch⟩, hcgo⟩, htags⟩ := h
    cases change
    cases hgoos
    cases hgoarch
    cases hcgo
    cases htags
    rfl
  · intro heq
    subst heq
    exact ⟨⟨⟨rfl, rfl⟩, rfl⟩, rfl⟩

theorem Offers.nodup {env : BuildEnv} {name : String} {header : Header} {change : Change}
    (h : env.Offers name header change) : (change.tags.map (·.1)).Nodup := by
  rw [h.tags]
  exact nodup_switchedTags name header

/-- **Which tags hold after a change.** -/
theorem matchesTag_apply {change : Change} (hnodup : (change.tags.map (·.1)).Nodup)
    (env : BuildEnv) (tag : String) :
    (change.apply env).matchesTag tag =
      if tag = "cgo" then change.cgo
      else systemHolds change.goos tag || tag = change.goarch ||
        ((change.tags.lookup tag).getD ((env.homeTags tag).contains tag) ||
          env.holdsFixed tag) := by
  have hanyway : (change.apply env).holdsAnyway tag =
      ((change.tags.lookup tag).getD ((env.homeTags tag).contains tag) || env.holdsFixed tag) :=
    holdsAnyway_switchTags (env.onPlatform change.goos change.goarch change.cgo) _ tag hnodup
  rw [matchesTag_eq, hanyway]
  unfold Change.apply
  rw [goos_switchTags, goarch_switchTags, cgo_switchTags]
  rfl

/-- **Leaving everything as it is makes no tag come to hold or cease to.** A tag that holds is put
    into the set in which it is switched, and one that does not is in neither set. -/
theorem matchesTag_presentChange (env : BuildEnv) (name : String) (header : Header)
    (tag : String) :
    ((env.presentChange name header).apply env).matchesTag tag = env.matchesTag tag := by
  rw [matchesTag_apply (offers_presentChange env name header).nodup]
  unfold presentChange
  by_cases hswitched : tag ∈ switchedTags name header
  · have hlookup : (env.presentSwitches name header).lookup tag = some (env.matchesTag tag) :=
      List.lookup_graph _ hswitched
    rw [hlookup, Option.getD_some, matchesTag_eq, holdsAnyway_eq]
    split
    · rfl
    · cases systemHolds env.goos tag <;> cases decide (tag = env.goarch) <;>
        cases (env.homeTags tag).contains tag <;> cases env.holdsFixed tag <;> rfl
  · have hlookup : (env.presentSwitches name header).lookup tag = none := by
      rw [List.lookup_eq_none_iff]
      intro switch hswitch
      obtain ⟨other, hother, rfl⟩ := List.mem_map.mp hswitch
      have hne : tag ≠ other := fun e => hswitched (e ▸ hother)
      simpa using hne
    rw [hlookup, Option.getD_none, ← holdsAnyway_eq, matchesTag_eq]

/-! ## 5. Resolving -/

section Resolve

variable {tree : FileTree} {env : BuildEnv} {path : Path} {name source : String} {header : Header}
  (hname : path.fileName = some name) (hsource : env.effectiveSource tree path = .ok source)
  (hheader : Header.scan source.toList = .ok header)

include hname hsource hheader

/-- What is found for a file that can be read. -/
theorem resolveFor_eq_ok_iff_fitting {found : BuildEnv} :
    env.resolveFor tree path = .ok found ↔
      ∃ fit, env.fitting name header = some fit ∧
        found = { fit with dir := some (path.parent.getD ⟨"."⟩) } := by
  unfold resolveFor
  simp only [hname, hsource, hheader]
  cases env.fitting name header <;> simp [eq_comm]

/-- Something is found exactly if a change that is offered builds the file. -/
theorem exists_resolveFor_iff (hnot : env.matchesFile name header = false) :
    (∃ found, env.resolveFor tree path = .ok found) ↔
      ∃ change, env.Offers name header change ∧
        (change.apply env).matchesFile name header = true := by
  rw [← exists_fitting_iff hnot]
  constructor
  · intro h
    obtain ⟨found, hfound⟩ := h
    obtain ⟨fit, hfit, -⟩ := (resolveFor_eq_ok_iff_fitting hname hsource hheader).mp hfound
    exact ⟨fit, hfit⟩
  · intro h
    obtain ⟨fit, hfit⟩ := h
    exact ⟨_, (resolveFor_eq_ok_iff_fitting hname hsource hheader).mpr ⟨fit, hfit, rfl⟩⟩

/-- What is found is the environment with a cheapest change. -/
theorem exists_isCheapest_of_resolveFor (hnot : env.matchesFile name header = false)
    {found : BuildEnv} (hfound : env.resolveFor tree path = .ok found) :
    ∃ change, env.IsCheapest name header change ∧
      found = { change.apply env with dir := found.dir } := by
  obtain ⟨fit, hfit, rfl⟩ := (resolveFor_eq_ok_iff_fitting hname hsource hheader).mp hfound
  obtain ⟨change, hcheapest, rfl⟩ := exists_isCheapest_of_fitting hnot hfit
  exact ⟨change, hcheapest, rfl⟩

end Resolve

/-- What the search for a file that an environment does not build has to do with the changes that
    it offers. -/
structure FindsCheapest (tree : FileTree) (env : BuildEnv) (path : Path) (name : String)
    (header : Header) : Prop where
  /-- It finds something exactly if one of them builds the file. -/
  found_iff : (∃ found, env.resolveFor tree path = .ok found) ↔
    ∃ change, env.Offers name header change ∧ (change.apply env).matchesFile name header = true
  /-- It finds one that builds the file, and no other such change is cheaper. -/
  cheapest : ∀ found, env.resolveFor tree path = .ok found →
    ∃ change, env.IsCheapest name header change ∧
      found = { change.apply env with dir := found.dir }
  /-- One of them alone costs nothing, and it makes no mentioned tag come to hold or cease to. -/
  free : ∃ present, env.Offers name header present ∧
    (∀ change, env.Offers name header change → (change.cost env = 0 ↔ change = present)) ∧
    ∀ tag ∈ mentionedTags name header, (present.apply env).matchesTag tag = env.matchesTag tag

/-- **What is found for a file is the environment with a cheapest change.** -/
theorem findsCheapest_of_scan {tree : FileTree} {env : BuildEnv} {path : Path}
    {name source : String} {header : Header} (hname : path.fileName = some name)
    (hsource : env.effectiveSource tree path = .ok source)
    (hheader : Header.scan source.toList = .ok header)
    (hnot : env.matchesFile name header = false) : env.FindsCheapest tree path name header where
  found_iff := exists_resolveFor_iff hname hsource hheader hnot
  cheapest := fun _ hfound => exists_isCheapest_of_resolveFor hname hsource hheader hnot hfound
  free := ⟨env.presentChange name header, offers_presentChange env name header,
    fun _ hoffers => cost_eq_zero_iff hoffers,
    fun tag _ => matchesTag_presentChange env name header tag⟩

/-- A source for two systems of another architecture, with one tag and without another. -/
def taggedSource : String :=
  "//go:build (windows || plan9) && arm64 && slow && !race\n\npackage p\n\nimport \"C\"\n"

/-- Its header. -/
def taggedHeader : Header :=
  ⟨some (.and (.and (.and (.or (.tag "windows") (.tag "plan9")) (.tag "arm64")) (.tag "slow"))
    (.not (.tag "race"))), some "p", none, true⟩

/-- The environment for the source changes the system, the architecture and two tags. -/
theorem findsCheapest_of_scan_taggedSource :
    let path : Path := ⟨"/p/y_test.go"⟩
    let env := { hostWith path taggedSource with buildTags := TagSet.parse "race" }
    path.fileName = some "y_test.go" ∧ env.effectiveSource ⟨[], []⟩ path = .ok taggedSource ∧
      Header.scan taggedSource.toList = .ok taggedHeader ∧
      env.matchesFile "y_test.go" taggedHeader = false ∧
      env.FindsCheapest ⟨[], []⟩ path "y_test.go" taggedHeader ∧
      ∃ found, env.resolveFor ⟨[], []⟩ path = .ok found := by
  intro path env
  have hname : path.fileName = some "y_test.go" := by decide +kernel
  have hsource : env.effectiveSource ⟨[], []⟩ path = .ok taggedSource := by decide +kernel
  have hheader : Header.scan taggedSource.toList = .ok taggedHeader := by decide +kernel
  have hnot : env.matchesFile "y_test.go" taggedHeader = false := by decide +kernel
  have hfinds := findsCheapest_of_scan hname hsource hheader hnot
  let change : Change := ⟨"plan9", "arm64", true, [("slow", true), ("race", false)]⟩
  have hoffers : env.Offers "y_test.go" taggedHeader change :=
    offers_iff.mpr (by decide +kernel)
  have hbuilds : (change.apply env).matchesFile "y_test.go" taggedHeader = true := by
    decide +kernel
  exact ⟨hname, hsource, hheader, hnot, hfinds, hfinds.found_iff.mpr ⟨change, hoffers, hbuilds⟩⟩

end TestScout.BuildEnv

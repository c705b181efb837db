import TestScout.Proofs.BuildEnv.Candidates
import TestScout.Proofs.Path.Names

/-!
# What finding an environment keeps

The environment found for a file builds it, stands in the directory of the file and differs from
the one at hand only where the search may change it. Main statements:

* `sameOrder_switchAll`: switching tags, each at most once, moves none of the tags that stay;
* `Frame`, `frame_of_mem_candidates`: what every environment that the search tries keeps;
* `resolution_of_resolveFor`: what is found is sound, keeps what it has to keep, and is found again
  when the search starts from it.
-/

namespace TestScout

namespace TagSet

/-! ## 1. Order -/

/-- The tags that two sets share stand in the same order in both. -/
def SameOrder (x y : TagSet) : Prop :=
  x.tags.filter (· ∈ y.tags) = y.tags.filter (· ∈ x.tags)

/-- The set with tags switched one after the other. -/
def switchAll (set : TagSet) (switches : List (String × Bool)) : TagSet :=
  switches.foldl (fun set switch => set.switch switch.1 switch.2) set

theorem sameOrder_refl (x : TagSet) : x.SameOrder x := rfl

/-- Inserting a tag that neither set has moves no shared tag. -/
theorem sameOrder_insert {x y : TagSet} (h : x.SameOrder y) (tag : String)
    (hsame : tag ∈ y.tags ↔ tag ∈ x.tags) : x.SameOrder (y.insert tag) := by
  by_cases hy : tag ∈ y.tags
  · have hinsert : (y.insert tag).tags = y.tags := by rw [tags_insert, if_pos hy]
    unfold SameOrder
    rw [hinsert]
    exact h
  · have hx : tag ∉ x.tags := fun hx => hy (hsame.mpr hx)
    have hinsert : (y.insert tag).tags = y.tags ++ [tag] := by rw [tags_insert, if_neg hy]
    have hleft : x.tags.filter (· ∈ y.tags ++ [tag]) = x.tags.filter (· ∈ y.tags) := by
      refine List.filter_congr fun other hother => ?_
      have hne : other ≠ tag := fun e => hx (e ▸ hother)
      simp [hne]
    unfold SameOrder
    rw [hinsert, hleft, h, List.filter_append]
    simp [hx]

/-- Removing a tag moves no other. -/
theorem sameOrder_remove {x y : TagSet} (h : x.SameOrder y) (tag : String) :
    x.SameOrder (y.remove tag) := by
  have hremove : (y.remove tag).tags = y.tags.filter (· ≠ tag) := by
    have he : (y.remove tag).tags = y.tags.erase tag := rfl
    rw [he, y.nodup.erase_eq_filter]
    exact List.filter_congr fun other _ => by rw [Bool.eq_iff_iff]; simp
  have hleft : x.tags.filter (· ∈ (y.remove tag).tags) =
      (x.tags.filter (· ∈ y.tags)).filter (· ≠ tag) := by
    rw [List.filter_filter]
    exact List.filter_congr fun other _ => by simp
  unfold SameOrder
  rw [hleft, h, hremove, List.filter_comm]

/-- A switch of a tag that both sets have or neither has moves no shared tag. -/
theorem sameOrder_switch {x y : TagSet} (h : x.SameOrder y) (tag : String) (on : Bool)
    (hsame : tag ∈ y.tags ↔ tag ∈ x.tags) : x.SameOrder (y.switch tag on) := by
  cases on with
  | true => exact sameOrder_insert h tag hsame
  | false => exact sameOrder_remove h tag

/-- A switch leaves the other tags in the set or out of it. -/
theorem mem_switch_of_ne {set : TagSet} {tag other : String} (h : other ≠ tag) (on : Bool) :
    other ∈ (set.switch tag on).tags ↔ other ∈ set.tags := by
  cases on <;> simp [switch, h]

/-- **What is not switched stays in the set or out of it.** -/
theorem mem_switchAll_of_not_mem {set : TagSet} {switches : List (String × Bool)} {tag : String}
    (h : tag ∉ switches.map (·.1)) :
    tag ∈ (set.switchAll switches).tags ↔ tag ∈ set.tags := by
  induction switches generalizing set with
  | nil => rfl
  | cons switch rest ih =>
    rw [List.map_cons, List.mem_cons, not_or] at h
    exact (ih h.2).trans (mem_switch_of_ne h.1 _)

/-- The order is kept from any set on, as long as the tags still to be switched are in both sets or
    in neither. -/
theorem sameOrder_switchAll_of {x y : TagSet} {switches : List (String × Bool)}
    (hnodup : (switches.map (·.1)).Nodup) (h : x.SameOrder y)
    (hsame : ∀ tag ∈ switches.map (·.1), tag ∈ y.tags ↔ tag ∈ x.tags) :
    x.SameOrder (y.switchAll switches) := by
  induction switches generalizing y with
  | nil => exact h
  | cons switch rest ih =>
    rw [List.map_cons, List.nodup_cons] at hnodup
    refine ih hnodup.2 (sameOrder_switch h _ _ (hsame _ List.mem_cons_self)) fun tag htag => ?_
    have hne : tag ≠ switch.1 := fun e => hnodup.1 (e ▸ htag)
    exact (mem_switch_of_ne hne _).trans (hsame tag (List.mem_cons_of_mem _ htag))

/-- **Switching tags, each at most once, moves none of the tags that stay.** -/
theorem sameOrder_switchAll (set : TagSet) {switches : List (String × Bool)}
    (hnodup : (switches.map (·.1)).Nodup) : set.SameOrder (set.switchAll switches) :=
  sameOrder_switchAll_of hnodup (sameOrder_refl set) fun _ _ => Iff.rfl

end TagSet

/-- Whether the constraint of a header mentions a tag. -/
def Header.Mentions (header : Header) (tag : String) : Prop :=
  ∃ x, header.constraint = some x ∧ x.Mentions tag

namespace BuildEnv

/-! ## 2. Switches by set -/

theorem buildTags_switchTags (env : BuildEnv) (switches : List (String × Bool)) :
    (env.switchTags switches).buildTags =
      env.buildTags.switchAll (switches.filter fun switch => !isExperiment switch.1) := by
  induction switches generalizing env with
  | nil => rfl
  | cons switch rest ih =>
    rw [switchTags_cons, ih, setTag_eq]
    cases h : isExperiment switch.1 <;> simp [h, TagSet.switchAll]

theorem toolTags_switchTags (env : BuildEnv) (switches : List (String × Bool)) :
    (env.switchTags switches).toolTags =
      env.toolTags.switchAll (switches.filter fun switch => isExperiment switch.1) := by
  induction switches generalizing env with
  | nil => rfl
  | cons switch rest ih =>
    rw [switchTags_cons, ih, setTag_eq]
    cases h : isExperiment switch.1 <;> simp [h, TagSet.switchAll]

/-! ## 3. What the search keeps -/

/-- What an environment that is tried for a file shares with the one at hand. -/
structure Frame (header : Header) (env found : BuildEnv) : Prop where
  goroot : found.goroot = env.goroot
  gopath : found.gopath = env.gopath
  compiler : found.compiler = env.compiler
  /-- The tags of the same releases hold. -/
  goMinor : found.goMinor = env.goMinor
  overlay : found.overlay = env.overlay
  /-- No tag that the constraint does not mention comes in or goes out. -/
  buildTags : ∀ tag, ¬ header.Mentions tag → (tag ∈ found.buildTags.tags ↔ tag ∈ env.buildTags.tags)
  toolTags : ∀ tag, ¬ header.Mentions tag → (tag ∈ found.toolTags.tags ↔ tag ∈ env.toolTags.tags)
  /-- The tags that stay keep their order. -/
  buildOrder : env.buildTags.SameOrder found.buildTags
  toolOrder : env.toolTags.SameOrder found.toolTags

theorem frame_refl (header : Header) (env : BuildEnv) : Frame header env env where
  goroot := rfl
  gopath := rfl
  compiler := rfl
  goMinor := rfl
  overlay := rfl
  buildTags _ _ := Iff.rfl
  toolTags _ _ := Iff.rfl
  buildOrder := TagSet.sameOrder_refl _
  toolOrder := TagSet.sameOrder_refl _

/-- **Every environment that the search tries keeps what it has to keep.** -/
theorem frame_of_mem_candidates {env found : BuildEnv} {name : String} {header : Header}
    (h : found ∈ env.candidates name header) : Frame header env found := by
  obtain ⟨system, -, machine, -, cgo, -, switches, hswitches, rfl⟩ := mem_candidates.mp h
  have hnodup : (switches.map (·.1)).Nodup := hswitches ▸ nodup_switchedTags name header
  have hmentions : ∀ tag ∈ switches.map (·.1), header.Mentions tag := by
    intro tag htag
    rw [hswitches] at htag
    obtain ⟨hmentioned, hfree⟩ := mem_of_mem_switchedTags htag
    exact mentions_of_isFreeTag hmentioned hfree
  have hpart : ∀ p : String × Bool → Bool, ((switches.filter p).map (·.1)).Sublist
      (switches.map (·.1)) := fun p => (List.filter_sublist (p := p)).map _
  exact {
    goroot := goroot_switchTags _ _
    gopath := gopath_switchTags _ _
    compiler := compiler_switchTags _ _
    goMinor := goMinor_switchTags _ _
    overlay := overlay_switchTags _ _
    buildTags := fun tag htag => by
      rw [buildTags_switchTags]
      exact TagSet.mem_switchAll_of_not_mem fun hmem =>
        htag (hmentions tag ((hpart _).subset hmem))
    toolTags := fun tag htag => by
      rw [toolTags_switchTags]
      exact TagSet.mem_switchAll_of_not_mem fun hmem =>
        htag (hmentions tag ((hpart _).subset hmem))
    buildOrder := by
      rw [buildTags_switchTags]
      exact TagSet.sameOrder_switchAll _ (hnodup.sublist (hpart _))
    toolOrder := by
      rw [toolTags_switchTags]
      exact TagSet.sameOrder_switchAll _ (hnodup.sublist (hpart _)) }

/-- What fits is the environment at hand, if that builds the file, or else one that was tried. -/
theorem fitting_eq_some {env found : BuildEnv} {name : String} {header : Header}
    (h : env.fitting name header = some found) :
    env.matchesFile name header = true ∧ found = env ∨
      env.matchesFile name header = false ∧ found ∈ env.candidates name header := by
  unfold fitting at h
  split at h
  · rename_i hmatches
    exact Or.inl ⟨hmatches, (Option.some.inj h).symm⟩
  · rename_i hmatches
    exact Or.inr ⟨by simpa using hmatches, List.mem_of_find?_eq_some h⟩

theorem frame_of_fitting {env found : BuildEnv} {name : String} {header : Header}
    (h : env.fitting name header = some found) : Frame header env found := by
  rcases fitting_eq_some h with ⟨-, rfl⟩ | ⟨-, hfound⟩
  · exact frame_refl header found
  · exact frame_of_mem_candidates hfound

/-! ## 4. Resolving -/

/-- Only the unsaved contents of an environment matter to what is read. -/
theorem effectiveSource_congr {x y : BuildEnv} (h : x.overlay = y.overlay) (tree : FileTree)
    (path : Path) : x.effectiveSource tree path = y.effectiveSource tree path := by
  unfold effectiveSource
  rw [h]

/-- **When an environment is found, and which.** -/
theorem resolveFor_eq_ok_iff {tree : FileTree} {env found : BuildEnv} {path : Path} :
    env.resolveFor tree path = .ok found ↔
      ∃ name source header fit, path.fileName = some name ∧
        env.effectiveSource tree path = .ok source ∧ Header.scan source.toList = .ok header ∧
        env.fitting name header = some fit ∧
        found = { fit with dir := some (path.parent.getD ⟨"."⟩) } := by
  unfold resolveFor
  cases hname : path.fileName with
  | none => simp
  | some name =>
    cases hsource : env.effectiveSource tree path with
    | error failure => simp
    | ok source =>
      cases hheader : Header.scan source.toList with
      | error cause => simp [hheader]
      | ok header =>
        cases hfit : env.fitting name header with
        | none => simp [hheader, hfit]
        | some fit => simp [hheader, hfit, eq_comm]

/-- The environment that is found reads every source as the one at hand does. -/
theorem effectiveSource_of_resolveFor {tree : FileTree} {env found : BuildEnv} {path : Path}
    (h : env.resolveFor tree path = .ok found) (other : Path) :
    found.effectiveSource tree other = env.effectiveSource tree other := by
  obtain ⟨_, _, _, fit, -, -, -, hfit, rfl⟩ := resolveFor_eq_ok_iff.mp h
  exact effectiveSource_congr (frame_of_fitting hfit).overlay tree other

/-- What the environment found for a file has to do with the one at hand. -/
structure Resolution (tree : FileTree) (env : BuildEnv) (path : Path) (name : String)
    (header : Header) (found : BuildEnv) : Prop where
  /-- It builds the file. -/
  builds : found.matchesFile name header = true
  /-- It is for the directory of the file. -/
  dir : found.dir.isSome = true ∧ found.dir = path.parent
  /-- It keeps what it has to keep. -/
  frame : Frame header env found
  /-- An environment that builds the file already only moves to its directory. -/
  unchanged : env.matchesFile name header = true → found = { env with dir := found.dir }
  /-- The search that starts from what it found ends there. -/
  stable : found.resolveFor tree path = .ok found

/-- **What is found for a file is sound, keeps what it has to keep, and is found again.** -/
theorem resolution_of_resolveFor {tree : FileTree} {env found : BuildEnv} {path : Path}
    (h : env.resolveFor tree path = .ok found) :
    ∃ name source header, path.fileName = some name ∧
      env.effectiveSource tree path = .ok source ∧ Header.scan source.toList = .ok header ∧
      Resolution tree env path name header found := by
  obtain ⟨name, source, header, fit, hname, hsource, hheader, hfit, rfl⟩ :=
    resolveFor_eq_ok_iff.mp h
  refine ⟨name, source, header, hname, hsource, hheader, ?_⟩
  obtain ⟨parent, hparent⟩ := Path.exists_parent_of_fileName hname
  have hframe := frame_of_fitting hfit
  have hbuilds := matchesFile_of_fitting hfit
  have hagain : fitting { fit with dir := some (path.parent.getD ⟨"."⟩) } name header =
      some { fit with dir := some (path.parent.getD ⟨"."⟩) } := by
    unfold fitting
    exact if_pos hbuilds
  exact {
    builds := hbuilds
    dir := ⟨rfl, by rw [hparent]; rfl⟩
    frame := { hframe with }
    unchanged := fun hmatches => by
      rcases fitting_eq_some hfit with ⟨-, rfl⟩ | ⟨hnot, -⟩
      · rfl
      · rw [hmatches] at hnot
        exact absurd hnot (by decide)
    stable := by
      refine resolveFor_eq_ok_iff.mpr ⟨name, source, header, _, hname, ?_, hheader, hagain, rfl⟩
      rw [← hsource]
      exact effectiveSource_congr hframe.overlay tree path }

/-- The environment of the host with one unsaved file. -/
def hostWith (path : Path) (source : String) : BuildEnv :=
  { ofVariables .built (fun _ => none) Settings.standard with overlay := some ⟨[(path, source)]⟩ }

/-- A source that the host does not build. -/
def armSource : String := "//go:build linux && arm64\n\npackage p\n"

/-- Its header. -/
def armHeader : Header :=
  ⟨some (.and (.tag "linux") (.tag "arm64")), some "p", none, false⟩

/-- A file for another architecture is found to be built for that one. -/
theorem resolveFor_armSource :
    (hostWith ⟨"/p/y_test.go"⟩ armSource).resolveFor ⟨[], []⟩ ⟨"/p/y_test.go"⟩ =
      .ok { hostWith ⟨"/p/y_test.go"⟩ armSource with
        goarch := "arm64", dir := some ⟨"/p"⟩ } := by
  let env := hostWith ⟨"/p/y_test.go"⟩ armSource
  -- The combinations are made in the order of their cost, so sorting leaves them as they are.
  have hsorted : (combinations (env.dimensions "y_test.go" armHeader)).Pairwise
      fun x y => decide (x.cost ≤ y.cost) = true := by decide +kernel
  have hfit : env.fitting "y_test.go" armHeader = some { env with goarch := "arm64" } := by
    unfold fitting candidates
    rw [List.mergeSort_of_pairwise hsorted]
    decide +kernel
  exact resolveFor_eq_ok_iff.mpr ⟨"y_test.go", armSource, armHeader, _, by decide +kernel,
    by decide +kernel, by decide +kernel, hfit, by decide +kernel⟩

theorem resolution_of_resolveFor_armSource :
    ∃ found, (hostWith ⟨"/p/y_test.go"⟩ armSource).resolveFor ⟨[], []⟩ ⟨"/p/y_test.go"⟩ =
        .ok found ∧ found.goarch = "arm64" ∧
      ∃ name source header, Path.fileName ⟨"/p/y_test.go"⟩ = some name ∧
        (hostWith ⟨"/p/y_test.go"⟩ armSource).effectiveSource ⟨[], []⟩ ⟨"/p/y_test.go"⟩ =
          .ok source ∧ Header.scan source.toList = .ok header ∧
        Resolution ⟨[], []⟩ (hostWith ⟨"/p/y_test.go"⟩ armSource) ⟨"/p/y_test.go"⟩ name header
          found :=
  ⟨_, resolveFor_armSource, rfl, resolution_of_resolveFor resolveFor_armSource⟩

end BuildEnv

end TestScout

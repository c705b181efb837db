import TestScout.BuildEnv.Difference
import TestScout.Proofs.TagSet.Reading

/-!
# A difference tells all

A difference between two environments is empty exactly if nothing has to be told, and nothing that
is told or passed over is lost: with the default and the difference the other environment is known
in every part that is compared. Main statements:

* `entries_listsFields`: the entries are the variables that have a value, in a fixed order;
* `between_isEmpty_iff`: when a difference is empty;
* `agrees_restored`: what is told and the default give the environment back;
* `between_tells_all`: all three together.
-/

namespace TestScout.EnvDifference

/-! ## 1. Entries -/

/-- The variables in the order in which they are told. -/
def variableNames : List String :=
  ["GOARCH", "GOHOSTARCH", "GOOS", "GOHOSTOS", "GOROOT", "GOPATH", "CGO_ENABLED", "GOFLAGS",
    "GOEXPERIMENT"]

/-- What a difference holds for a variable. -/
def value? (difference : EnvDifference) : String → Option String
  | "GOARCH" => difference.goarch
  | "GOHOSTARCH" => difference.hostArch
  | "GOOS" => difference.goos
  | "GOHOSTOS" => difference.hostOS
  | "GOROOT" => difference.goroot
  | "GOPATH" => difference.gopath
  | "CGO_ENABLED" => difference.cgo
  | "GOFLAGS" => difference.buildTags
  | "GOEXPERIMENT" => difference.toolTags
  | _ => .none

/-- The fields that have a value, with the value. -/
def present (fields : List (String × Option String)) : List (String × String) :=
  fields.filterMap fun field => field.2.map fun value => (field.1, value)

theorem names_present (fields : List (String × Option String)) :
    ((present fields).map (·.1)).Sublist (fields.map (·.1)) := by
  induction fields with
  | nil => exact List.Sublist.slnil
  | cons field rest ih =>
    obtain ⟨name, value⟩ := field
    unfold present at ih ⊢
    cases value with
    | none => exact ih.cons name
    | some value => exact ih.cons_cons name

/-- A name that is none of the fields' is not found. -/
theorem lookup_present_eq_none {fields : List (String × Option String)} {name : String}
    (h : name ∉ fields.map (·.1)) : (present fields).lookup name = .none := by
  refine List.lookup_eq_none_iff.mpr fun entry hentry => ?_
  have hname : entry.1 ∈ fields.map (·.1) :=
    (names_present fields).subset (List.mem_map_of_mem hentry)
  exact bne_iff_ne.mpr fun heq => h (heq ▸ hname)

/-- **A field with a name of its own is found with its value**, if it has one. -/
theorem lookup_present {fields : List (String × Option String)}
    (hnodup : (fields.map (·.1)).Nodup) (name : String) :
    (present fields).lookup name = (fields.lookup name).join := by
  induction fields with
  | nil => rfl
  | cons field rest ih =>
    obtain ⟨own, value⟩ := field
    obtain ⟨hnew, hrest⟩ := List.nodup_cons.mp hnodup
    have hbehind := ih hrest
    by_cases hname : name = own
    · subst hname
      rw [List.lookup_cons_self]
      cases value with
      | none =>
        have hnone : (present rest).lookup name = .none := lookup_present_eq_none hnew
        exact hnone
      | some value => exact List.lookup_cons_self
    · have hskip : (name == own) = false := beq_false_of_ne hname
      rw [List.lookup_cons, hskip]
      cases value with
      | none => exact hbehind
      | some value =>
        have hfront : present ((own, some value) :: rest) = (own, value) :: present rest := rfl
        rw [hfront, List.lookup_cons, hskip]
        exact hbehind

theorem join_lookup_fields (difference : EnvDifference) (name : String) :
    (difference.fields.lookup name).join = difference.value? name := by
  unfold value? fields
  split
  case h_10 h1 h2 h3 h4 h5 h6 h7 h8 h9 =>
    have hskip {own : String} (h : name ≠ own) : (name == own) = false := beq_false_of_ne h
    simp only [List.lookup_cons, List.lookup_nil, hskip h1, hskip h2, hskip h3, hskip h4,
      hskip h5, hskip h6, hskip h7, hskip h8, hskip h9, Option.join_none]
  all_goals rfl

/-- **The entries are the variables that have a value, in a fixed order.** -/
theorem entries_listsFields (difference : EnvDifference) :
    (difference.entries.map (·.1)).Sublist variableNames ∧
      ∀ name, difference.entries.lookup name = difference.value? name := by
  refine ⟨names_present difference.fields, fun name => ?_⟩
  have hnodup : (difference.fields.map (·.1)).Nodup := by
    show variableNames.Nodup
    decide
  exact (lookup_present hnodup name).trans (join_lookup_fields difference name)

/-! ## 2. When there is no difference -/

theorem when_eq_none_iff {α : Type} {differs : Bool} {value : α} :
    when differs value = .none ↔ differs = false := by
  cases differs <;> simp [when]

theorem tellsPlatform_eq_false_iff {base own host : String} :
    tellsPlatform base own host = false ↔ own = base ∧ own = host := by
  simp [tellsPlatform]

/-- Two environments agree in every part that is compared, their tags as sets. -/
structure Agrees (x y : BuildEnv) : Prop where
  goos : x.goos = y.goos
  goarch : x.goarch = y.goarch
  goroot : x.goroot = y.goroot
  gopath : x.gopath = y.gopath
  cgo : x.cgo = y.cgo
  buildTags : ∀ tag, tag ∈ x.buildTags.tags ↔ tag ∈ y.buildTags.tags
  toolTags : ∀ tag, tag ∈ x.toolTags.tags ↔ tag ∈ y.toolTags.tags

/-- The platform of an environment is the host's. -/
def OnHost (host : Host) (env : BuildEnv) : Prop :=
  env.goos = host.os ∧ env.goarch = host.arch

/-- **There is no difference exactly between environments for the host that agree.** -/
theorem between_isEmpty_iff {host : Host} {base env : BuildEnv} :
    (between host base env).isEmpty = true ↔ Agrees env base ∧ OnHost host env := by
  unfold isEmpty none between OnHost
  simp only [decide_eq_true_eq, EnvDifference.mk.injEq, when_eq_none_iff,
    tellsPlatform_eq_false_iff, bne_eq_false_iff_eq, Bool.not_eq_false', TagSet.same_iff]
  constructor
  · intro h
    obtain ⟨⟨harch, hhostArch⟩, -, ⟨hos, hhostOS⟩, -, hroot, hpath, hcgo, hbuild, htool⟩ := h
    exact ⟨⟨hos, harch, hroot, hpath, hcgo, hbuild, htool⟩, hhostOS, hhostArch⟩
  · intro h
    obtain ⟨hagrees, hhostOS, hhostArch⟩ := h
    exact ⟨⟨hagrees.goarch, hhostArch⟩, ⟨hagrees.goarch, hhostArch⟩, ⟨hagrees.goos, hhostOS⟩,
      ⟨hagrees.goos, hhostOS⟩, hagrees.goroot, hagrees.gopath, hagrees.cgo, hagrees.buildTags,
      hagrees.toolTags⟩

/-! ## 3. What a difference gives back -/

/-- The default with all that a difference tells. -/
def restored (base : BuildEnv) (difference : EnvDifference) : BuildEnv :=
  { base with
    goos := difference.goos.getD base.goos
    goarch := difference.goarch.getD base.goarch
    goroot := difference.goroot.getD base.goroot
    gopath := difference.gopath.getD base.gopath
    cgo := (difference.cgo.map (· == "true")).getD base.cgo
    buildTags := (difference.buildTags.map TagSet.parse).getD base.buildTags
    toolTags := (difference.toolTags.map TagSet.parse).getD base.toolTags }

theorem map_when {α β : Type} (f : α → β) (differs : Bool) (value : α) :
    (when differs value).map f = when differs (f value) := by
  cases differs <;> rfl

/-- What is told, or the default, is what was compared, if it is the default where it is not
    told. -/
theorem getD_when {α : Type} {differs : Bool} {value base : α}
    (h : differs = false → value = base) : (when differs value).getD base = value := by
  cases differs with
  | false => exact (h rfl).symm
  | true => rfl

/-- Sets of tags are told, an empty one too, unless they have the same members. -/
theorem mem_getD_parse {base own : TagSet}
    (h : ∀ tag ∈ own.tags, IsEntry TagSet.isSeparator tag.toList) (tag : String) :
    tag ∈ (((when (!own.same base) own.render).map TagSet.parse).getD base).tags ↔
      tag ∈ own.tags := by
  rw [map_when, TagSet.parse_render h]
  cases hsame : own.same base with
  | false => exact Iff.rfl
  | true => exact (TagSet.same_iff.mp hsame tag).symm

/-- **What is told and the default give the environment back.** -/
theorem agrees_restored (host : Host) (base : BuildEnv) {env : BuildEnv}
    (hbuild : ∀ tag ∈ env.buildTags.tags, IsEntry TagSet.isSeparator tag.toList)
    (htool : ∀ tag ∈ env.toolTags.tags, IsEntry TagSet.isSeparator tag.toList) :
    Agrees (restored base (between host base env)) env where
  goos := getD_when fun h => (tellsPlatform_eq_false_iff.mp h).1
  goarch := getD_when fun h => (tellsPlatform_eq_false_iff.mp h).1
  goroot := getD_when bne_eq_false_iff_eq.mp
  gopath := getD_when bne_eq_false_iff_eq.mp
  cgo := by
    have hread : ((if env.cgo then "true" else "false") == "true") = env.cgo := by
      cases env.cgo <;> rfl
    show ((when (env.cgo != base.cgo) _).map (· == "true")).getD base.cgo = env.cgo
    rw [map_when, hread]
    exact getD_when bne_eq_false_iff_eq.mp
  buildTags := mem_getD_parse hbuild
  toolTags := mem_getD_parse htool

/-! ## 4. All of it -/

/-- **A difference tells all that differs and nothing else.** It is empty exactly between
    environments for the host that agree; with the default it gives back an environment whose tags
    stand for themselves in a list; and its entries are its variables with their values. -/
theorem between_tells_all (host : Host) (base env : BuildEnv)
    (hbuild : ∀ tag ∈ env.buildTags.tags, IsEntry TagSet.isSeparator tag.toList)
    (htool : ∀ tag ∈ env.toolTags.tags, IsEntry TagSet.isSeparator tag.toList) :
    ((between host base env).isEmpty = true ↔ Agrees env base ∧ OnHost host env) ∧
      Agrees (restored base (between host base env)) env ∧
      ((between host base env).entries.map (·.1)).Sublist variableNames ∧
      ∀ name, (between host base env).entries.lookup name = (between host base env).value? name :=
  ⟨between_isEmpty_iff, agrees_restored host base hbuild htool, entries_listsFields _⟩

/-- An environment of the host with tags, and one for another system that has none of them. -/
def taggedBase : BuildEnv :=
  ⟨"linux", "amd64", "/go", "", true, .parse "slow,e2e", .parse "goexperiment.arenas", 24, "gc",
    .none, .none⟩

@[inherit_doc taggedBase]
def untagged : BuildEnv :=
  { taggedBase with goos := "windows", cgo := false, buildTags := .empty }

/-- The set that lost its tags is told as an empty one, and the set that kept them is not told. -/
theorem between_tells_all_untagged :
    ((∀ tag ∈ untagged.buildTags.tags, IsEntry TagSet.isSeparator tag.toList) ∧
      ∀ tag ∈ untagged.toolTags.tags, IsEntry TagSet.isSeparator tag.toList) ∧
    (between .built taggedBase untagged).entries =
        [("GOOS", "windows"), ("GOHOSTOS", "linux"), ("CGO_ENABLED", "false"), ("GOFLAGS", "")] ∧
      Agrees (restored taggedBase (between .built taggedBase untagged)) untagged := by
  have hbuild : ∀ tag ∈ untagged.buildTags.tags, IsEntry TagSet.isSeparator tag.toList :=
    fun tag htag => absurd htag List.not_mem_nil
  have htool : ∀ tag ∈ untagged.toolTags.tags, IsEntry TagSet.isSeparator tag.toList :=
    fun tag htag => TagSet.isEntry_of_mem_parse htag
  exact ⟨⟨hbuild, htool⟩, by decide +kernel,
    (between_tells_all .built taggedBase untagged hbuild htool).2.1⟩

end TestScout.EnvDifference

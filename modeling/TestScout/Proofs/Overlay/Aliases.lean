import Mathlib.Data.List.Pairwise
import TestScout.Proofs.FileTree.Direct
import TestScout.Proofs.Overlay.Saving

/-!
# Aliases of unsaved files

Two paths with one file name are the same file if they have one clean form, or if they denote one
thing in the tree. The clean form is found without asking the tree, so the two notions need not fit
together: behind a link, or where something is missing, a path may have the clean form of one file
and denote another one. Main statements:

* `sameFile_iff`, `sameFile_self`: what the same file is; with `sameFile_comm` it is reflexive and
  symmetric in every tree;
* `aliasConsistent_iff`: overlays answer for all aliases of a file alike exactly among paths where
  being the same file is transitive;
* `transitive_of_cleaningAgrees`: that is so among paths where equal clean forms denote the same;
* `lookups_agree`: so overlays of direct paths answer for all such aliases alike;
* `lookups_differ_climbTree`: for a path that climbs up behind a link they need not.
-/

namespace TestScout

open FileTree

/-! ## 1. Being the same file -/

/-- What a path denotes, apart from its names, if it denotes anything. -/
def FileTree.identity? (tree : FileTree) (path : Path) : Option Identity :=
  (tree.resolve path).toOption.map tree.identity

theorem denoteSame_iff_identity? {tree : FileTree} {x y : Path} :
    tree.denoteSame x y = true ↔
      ∃ thing, tree.identity? x = some thing ∧ tree.identity? y = some thing := by
  unfold denoteSame identity?
  cases tree.resolve x with
  | error cause => simp [Except.toOption]
  | ok a =>
    cases tree.resolve y with
    | error cause => simp [Except.toOption]
    | ok b => simp [Except.toOption, eq_comm]

/-- Paths with the same components have the same clean form and the same file name. -/
theorem Path.clean_of_same {x y : Path} (h : x.same y = true) :
    x.clean = y.clean ∧ x.fileName = y.fileName := by
  have hcomponents : x.components = y.components := Path.same_iff.mp h
  unfold Path.clean Path.cleanComponents Path.fileName
  rw [hcomponents]
  exact ⟨rfl, rfl⟩

/-- **The same file is one with the same name and the same clean form, or one that the tree knows to
    be the same.** -/
theorem sameFile_iff {tree : FileTree} {x y : Path} :
    sameFile tree x y = true ↔ x.fileName = y.fileName ∧
      (x.clean.same y.clean = true ∨ tree.denoteSame x y = true) := by
  unfold sameFile
  simp only [Bool.or_eq_true, Bool.and_eq_true, decide_eq_true_eq]
  constructor
  · intro h
    rcases h with hsame | h
    · obtain ⟨hclean, hname⟩ := Path.clean_of_same hsame
      exact ⟨hname, Or.inl (by rw [hclean]; exact Path.same_iff.mpr rfl)⟩
    · exact h
  · exact Or.inr

theorem sameFile_self (tree : FileTree) (x : Path) : sameFile tree x x = true :=
  sameFile_iff.mpr ⟨rfl, Or.inl (Path.same_iff.mpr rfl)⟩

theorem sameFile_of_same {tree : FileTree} {x y : Path} (h : x.same y = true) :
    sameFile tree x y = true := by
  unfold sameFile
  rw [h, Bool.true_or]

/-! ## 2. Answers for aliases -/

/-- Being the same file is transitive among some paths. -/
def TransitiveAmong (tree : FileTree) (paths : Path → Prop) : Prop :=
  ∀ x y z, paths x → paths y → paths z →
    sameFile tree x y = true → sameFile tree y z = true → sameFile tree x z = true

namespace Overlay

/-- Every overlay of some paths, no two of them the same file, answers alike for any two of them
    that are the same file. -/
def AliasConsistent (tree : FileTree) (paths : Path → Prop) : Prop :=
  ∀ overlay : Overlay, (∀ entry ∈ overlay.entries, paths entry.1) →
    (overlay.entries.Pairwise fun x y => sameFile tree x.1 y.1 = false) →
    ∀ p q, paths p → paths q → sameFile tree p q = true →
      overlay.lookup tree p = overlay.lookup tree q

section Lookup

variable {tree : FileTree} {paths : Path → Prop} (htrans : TransitiveAmong tree paths)
  {overlay : Overlay} (hkeys : ∀ entry ∈ overlay.entries, paths entry.1)
  (hdistinct : overlay.entries.Pairwise fun x y => sameFile tree x.1 y.1 = false)

include htrans hkeys hdistinct

/-- Only one entry is the same file as a path. -/
theorem eq_of_sameFile {p : Path} (hp : paths p) {entry other : Path × String}
    (hentry : entry ∈ overlay.entries) (hother : other ∈ overlay.entries)
    (h : sameFile tree p entry.1 = true) (h' : sameFile tree p other.1 = true) :
    entry = other := by
  by_contra hne
  have hsymm : Std.Symm fun x y : Path × String => sameFile tree x.1 y.1 = false :=
    ⟨fun x y hxy => by rw [sameFile_comm]; exact hxy⟩
  have hnot := hdistinct.forall hentry hother hne
  have hsame : sameFile tree entry.1 other.1 = true :=
    htrans _ p _ (hkeys entry hentry) hp (hkeys other hother)
      (by rw [sameFile_comm]; exact h) h'
  rw [hsame] at hnot
  cases hnot

/-- The entry of a path itself is the first one that is the same file. -/
theorem lookup_eq_aliasContent? {p : Path} (hp : paths p) :
    overlay.lookup tree p = overlay.aliasContent? tree p := by
  unfold lookup ownContent?
  cases hown : overlay.entries.find? fun entry => entry.1.same p with
  | none => rfl
  | some entry =>
    have hentry := List.mem_of_find?_eq_some hown
    have hkey : entry.1.same p = true := by simpa using List.find?_some hown
    have hsame : sameFile tree p entry.1 = true := by
      rw [sameFile_comm]
      exact sameFile_of_same hkey
    unfold aliasContent?
    cases hfirst : overlay.entries.find? fun entry => sameFile tree p entry.1 with
    | none => exact absurd hsame (List.find?_eq_none.mp hfirst entry hentry)
    | some first =>
      have hfirstSame : sameFile tree p first.1 = true := by
        simpa using List.find?_some hfirst
      have heq := eq_of_sameFile htrans hkeys hdistinct hp hentry
        (List.mem_of_find?_eq_some hfirst) hsame hfirstSame
      rw [heq]
      rfl

end Lookup

/-- **Overlays answer for aliases alike exactly where being the same file is transitive.** -/
theorem aliasConsistent_iff {tree : FileTree} {paths : Path → Prop} :
    AliasConsistent tree paths ↔ TransitiveAmong tree paths := by
  constructor
  · intro h x y z hx hy hz hxy hyz
    by_contra hxz
    rw [Bool.not_eq_true] at hxz
    -- two contents, one under each end
    let overlay : Overlay := ⟨[(x, "first"), (z, "second")]⟩
    have hkeys : ∀ entry ∈ overlay.entries, paths entry.1 := by
      intro entry hentry
      rcases List.mem_pair.mp hentry with rfl | rfl
      · exact hx
      · exact hz
    have hdistinct : overlay.entries.Pairwise fun a b => sameFile tree a.1 b.1 = false :=
      List.pairwise_pair.mpr hxz
    have hself : ∀ path : Path, path.same path = true := fun _ => Path.same_iff.mpr rfl
    have hne : x.same z = false := by
      rw [← Bool.not_eq_true]
      intro hsame
      rw [sameFile_of_same hsame] at hxz
      cases hxz
    have hfirst : overlay.lookup tree x = some "first" := by
      simp [overlay, lookup, ownContent?, hself]
    have hsecond : overlay.lookup tree z = some "second" := by
      simp [overlay, lookup, ownContent?, hself, hne]
    have hends : overlay.lookup tree x = overlay.lookup tree z :=
      (h overlay hkeys hdistinct x y hx hy hxy).trans (h overlay hkeys hdistinct y z hy hz hyz)
    rw [hfirst, hsecond] at hends
    exact absurd hends (by decide)
  · intro htrans overlay hkeys hdistinct p q hp hq hpq
    have hqp : sameFile tree q p = true := by
      rw [sameFile_comm]
      exact hpq
    rw [lookup_eq_aliasContent? htrans hkeys hdistinct hp,
      lookup_eq_aliasContent? htrans hkeys hdistinct hq]
    unfold aliasContent?
    rw [List.find?_congr fun entry hentry => ?_]
    rw [Bool.eq_iff_iff]
    exact ⟨htrans q p _ hq hp (hkeys entry hentry) hqp,
      htrans p q _ hp hq (hkeys entry hentry) hpq⟩

/-! ## 3. Where clean forms agree with the tree -/

/-- Among some paths, those with one file name and one clean form denote the same, or nothing. -/
def CleaningAgrees (tree : FileTree) (paths : Path → Prop) : Prop :=
  ∀ x y, paths x → paths y → x.fileName = y.fileName → x.clean.same y.clean = true →
    tree.identity? x = tree.identity? y

/-- **Where clean forms agree with the tree, being the same file is transitive.** -/
theorem transitive_of_cleaningAgrees {tree : FileTree} {paths : Path → Prop}
    (h : CleaningAgrees tree paths) : TransitiveAmong tree paths := by
  intro x y z hx hy hz hxy hyz
  obtain ⟨hname, hxy⟩ := sameFile_iff.mp hxy
  obtain ⟨hname', hyz⟩ := sameFile_iff.mp hyz
  refine sameFile_iff.mpr ⟨hname.trans hname', ?_⟩
  rcases hxy with hclean | hdenote
  · rcases hyz with hclean' | hdenote'
    · exact Or.inl (Path.same_iff.mpr
        ((Path.same_iff.mp hclean).trans (Path.same_iff.mp hclean')))
    · obtain ⟨thing, hthing, hthing'⟩ := denoteSame_iff_identity?.mp hdenote'
      exact Or.inr (denoteSame_iff_identity?.mpr
        ⟨thing, (h x y hx hy hname hclean).trans hthing, hthing'⟩)
  · rcases hyz with hclean' | hdenote'
    · obtain ⟨thing, hthing, hthing'⟩ := denoteSame_iff_identity?.mp hdenote
      exact Or.inr (denoteSame_iff_identity?.mpr
        ⟨thing, hthing, (h y z hy hz hname' hclean').symm.trans hthing'⟩)
    · exact Or.inr (denoteSame_trans hdenote hdenote')

/-- Direct paths with one clean form lead to the same place. -/
theorem cleaningAgrees_direct (tree : FileTree) : CleaningAgrees tree Path.Direct := by
  intro x y hx hy _ hclean
  unfold FileTree.identity?
  rw [Path.resolve_of_clean_same tree hx hy hclean]

/-! ## 4. Answers for all aliases -/

/-- **Overlays answer for the aliases of a file alike exactly where being the same file is
    transitive.** It is reflexive and symmetric in every tree, and transitive among paths whose
    clean forms agree with the tree, as those of direct paths do. -/
theorem lookups_agree (tree : FileTree) :
    (∀ x, sameFile tree x x = true) ∧ (∀ x y, sameFile tree x y = sameFile tree y x) ∧
      (∀ paths, AliasConsistent tree paths ↔ TransitiveAmong tree paths) ∧
      (∀ paths, CleaningAgrees tree paths → AliasConsistent tree paths) ∧
      AliasConsistent tree Path.Direct :=
  ⟨sameFile_self tree, sameFile_comm tree, fun _ => aliasConsistent_iff,
    fun _ h => aliasConsistent_iff.mpr (transitive_of_cleaningAgrees h),
    aliasConsistent_iff.mpr (transitive_of_cleaningAgrees (cleaningAgrees_direct tree))⟩

/-- A workspace that is also reached through a link in it. -/
def workspaceTree : FileTree :=
  ⟨[(["w"], .directory), (["w", "a.go"], .file ⟨#[]⟩), (["w", "link"], .link ⟨"/w"⟩)], ["w"]⟩

/-- In the workspace an unsaved content is found by a relative path and through the link. -/
theorem lookups_agree_workspaceTree :
    let paths : Path → Prop := (· ∈ [(⟨"/w/a.go"⟩ : Path), ⟨"a.go"⟩, ⟨"/w/link/./a.go"⟩])
    let overlay : Overlay := ⟨[(⟨"/w/a.go"⟩, "package p")]⟩
    CleaningAgrees workspaceTree paths ∧ AliasConsistent workspaceTree paths ∧
      overlay.lookup workspaceTree ⟨"a.go"⟩ = some "package p" ∧
      overlay.lookup workspaceTree ⟨"/w/link/./a.go"⟩ = some "package p" := by
  intro paths overlay
  have hagrees : CleaningAgrees workspaceTree paths := by
    have hall : ∀ x ∈ [(⟨"/w/a.go"⟩ : Path), ⟨"a.go"⟩, ⟨"/w/link/./a.go"⟩],
        ∀ y ∈ [(⟨"/w/a.go"⟩ : Path), ⟨"a.go"⟩, ⟨"/w/link/./a.go"⟩],
          x.fileName = y.fileName → x.clean.same y.clean = true →
            workspaceTree.identity? x = workspaceTree.identity? y := by decide +kernel
    exact fun x y hx hy => hall x hx y hy
  have hconsistent := (lookups_agree workspaceTree).2.2.2.1 paths hagrees
  have hkeys : ∀ entry ∈ overlay.entries, paths entry.1 := by
    intro entry hentry
    obtain rfl := List.mem_singleton.mp hentry
    exact List.mem_cons_self
  have hown : overlay.lookup workspaceTree ⟨"/w/a.go"⟩ = some "package p" := by decide +kernel
  have hfound : ∀ path, paths path → sameFile workspaceTree path ⟨"/w/a.go"⟩ = true →
      overlay.lookup workspaceTree path = some "package p" := fun path hpath hsame =>
    (hconsistent overlay hkeys (List.pairwise_singleton _ _) path ⟨"/w/a.go"⟩ hpath
      List.mem_cons_self hsame).trans hown
  exact ⟨hagrees, hconsistent, hfound _ (by simp [paths]) (by decide +kernel),
    hfound _ (by simp [paths]) (by decide +kernel)⟩

/-- A tree in which a link leads from one directory into another one. -/
def climbTree : FileTree :=
  ⟨[(["o"], .directory), (["o", "a.go"], .file ⟨#[]⟩), (["o", "sub"], .directory),
    (["w"], .directory), (["w", "link"], .link ⟨"/o/sub"⟩)], []⟩

/-- Contents for a file that is not saved yet and for one in the other directory. -/
def climbOverlay : Overlay := ⟨[(⟨"/w/a.go"⟩, "first"), (⟨"/o/a.go"⟩, "second")]⟩

/-- **A path that climbs up behind a link is the same file as two that are not the same file**, and
    one of them is answered for otherwise. -/
theorem lookups_differ_climbTree :
    climbOverlay.entries.Pairwise (fun x y => sameFile climbTree x.1 y.1 = false) ∧
      sameFile climbTree ⟨"/w/a.go"⟩ ⟨"/w/link/../a.go"⟩ = true ∧
      sameFile climbTree ⟨"/w/link/../a.go"⟩ ⟨"/o/a.go"⟩ = true ∧
      sameFile climbTree ⟨"/w/a.go"⟩ ⟨"/o/a.go"⟩ = false ∧
      climbOverlay.lookup climbTree ⟨"/w/link/../a.go"⟩ = some "first" ∧
      climbOverlay.lookup climbTree ⟨"/o/a.go"⟩ = some "second" := by
  decide +kernel

end Overlay

end TestScout

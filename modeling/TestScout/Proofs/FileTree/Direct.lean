import TestScout.Proofs.FileTree.Walk

/-!
# Direct paths

A direct path never climbs and ends in a name. Its clean form has the same names and starts at the
same place, and the pieces that cleaning drops ask a walk to stay where it is. So direct paths with
one clean form lead to the same place, whatever links they go through. Main statements:

* `SameSteps`, `walk_of_sameSteps`: steps that only stay make no difference in front of others;
* `cleanComponents_of_direct`: what cleaning leaves of a direct path;
* `eq_of_clean_same`: direct paths with one clean form start alike and have the same names;
* `resolve_of_clean_same`: they lead to the same place.
-/

namespace TestScout

namespace FileTree

/-! ## 1. Steps that stay -/

/-- The second steps are the first ones without some that stay and have others behind them. -/
inductive SameSteps : List Step → List Step → Prop where
  | nil : SameSteps [] []
  | cons (step : Step) {steps others : List Step} (h : SameSteps steps others) :
      SameSteps (step :: steps) (step :: others)
  | stay {steps others : List Step} (h : SameSteps steps others) (hne : others ≠ []) :
      SameSteps (.stay :: steps) others

namespace SameSteps

variable {steps others : List Step}

theorem eq_nil_iff (h : SameSteps steps others) : steps = [] ↔ others = [] := by
  cases h with
  | nil => exact Iff.rfl
  | cons step h => exact iff_of_false (List.cons_ne_nil _ _) (List.cons_ne_nil _ _)
  | stay h hne => exact iff_of_false (List.cons_ne_nil _ _) hne

theorem append_left (front : List Step) (h : SameSteps steps others) :
    SameSteps (front ++ steps) (front ++ others) := by
  induction front with
  | nil => exact h
  | cons step front ih => exact .cons step ih

/-- All steps that stay can go if the last step does not. -/
theorem filter_ne_stay {steps : List Step} (hlast : steps.getLast? ≠ some .stay) :
    SameSteps steps (steps.filter (· ≠ .stay)) := by
  induction steps with
  | nil => exact .nil
  | cons step rest ih =>
    have hrest : rest.getLast? ≠ some .stay := by
      intro hend
      exact hlast (by rw [List.getLast?_cons, hend]; rfl)
    by_cases hstay : step = .stay
    · subst hstay
      have hne : rest ≠ [] := by
        intro heq
        subst heq
        exact hlast rfl
      exact .stay (ih hrest) fun hnil => hne ((ih hrest).eq_nil_iff.mpr hnil)
    · rw [List.filter_cons_of_pos (by simpa using hstay)]
      exact .cons step (ih hrest)

end SameSteps

variable {tree : FileTree} {steps others : List Step}

/-- A step that stays does what the next step does first: it asks for a directory. -/
theorem walkWith_of_sameSteps {follow : Location → List Step → Except FileError Spot}
    (hfollow : ∀ place {steps others : List Step}, SameSteps steps others →
      follow place steps = follow place others)
    (h : SameSteps steps others) (location : Location) :
    tree.walkWith follow location steps = tree.walkWith follow location others := by
  induction h generalizing location with
  | nil => rfl
  | @stay steps others h hne ih =>
    by_cases hdirectory : tree.entry? location = some .directory
    · rw [walkWith, hdirectory]
      exact ih location
    · -- no step stays here, but the next one asks for a directory too
      obtain ⟨step, rest, rfl⟩ := List.exists_cons_of_ne_nil hne
      rw [walkWith_of_not_directory hdirectory, walkWith_of_not_directory hdirectory]
  | @cons step steps others h ih =>
    by_cases hdirectory : tree.entry? location = some .directory
    · cases step with
      | stay =>
        rw [walkWith, walkWith, hdirectory]
        exact ih location
      | up =>
        rw [walkWith, walkWith, hdirectory]
        exact ih location.dropLast
      | into name =>
        rw [walkWith, walkWith, hdirectory]
        simp only [h.eq_nil_iff, ih]
        cases tree.entry? (location ++ [name]) with
        | none => rfl
        | some below =>
          cases below with
          -- the steps of the target come in front of both walks
          | link target => simp only [hfollow _ (h.append_left (stepsOf target))]
          | file content => rfl
          | directory => rfl
          | shared number content => rfl
    · rw [walkWith_of_not_directory hdirectory, walkWith_of_not_directory hdirectory]

/-- **Steps that only stay make no difference to a walk** unless it ends with them. -/
theorem walk_of_sameSteps (h : SameSteps steps others) (links : Nat) (location : Location) :
    tree.walk links location steps = tree.walk links location others := by
  induction links generalizing steps others location with
  | zero => exact walkWith_of_sameSteps (fun _ _ _ _ => rfl) h location
  | succ links ih => exact walkWith_of_sameSteps (fun place _ _ h => ih h place) h location

end FileTree

/-! ## 2. Names of a direct path -/

namespace Path

open FileTree (pathOf stepOf stepsOf)

/-- The name that a piece stands for, if it neither stands for nothing nor climbs. -/
def nameOf (piece : List Char) : Option String :=
  if piece = [] ∨ piece = ['.'] then none else some (String.ofList piece)

/-- The names of a path that never climbs. -/
def names (path : Path) : List String :=
  path.pieces.filterMap nameOf

/-- A path that never climbs, ends in a name, and may be followed by its length and characters. -/
structure Direct (path : Path) : Prop where
  noUp : ['.', '.'] ∉ path.pieces
  ends : ∃ name, PlainName name ∧ path.pieces.getLast? = some name.toList
  noEnd : '\x00' ∉ path.text.toList
  short : path.text.utf8ByteSize ≤ FileTree.pathLimit

theorem innerComponent_of_ne_up {piece : List Char} (h : piece ≠ ['.', '.']) :
    innerComponent piece = (nameOf piece).map .name := by
  unfold innerComponent nameOf
  split
  · rfl
  · rfl

theorem filterMap_innerComponent {pieces : List (List Char)} (h : ['.', '.'] ∉ pieces) :
    pieces.filterMap innerComponent = (pieces.filterMap nameOf).map .name := by
  rw [List.map_filterMap]
  exact List.filterMap_congr fun piece hpiece =>
    innerComponent_of_ne_up fun e => h (e ▸ hpiece)

theorem filter_ne_stay_map_stepOf {pieces : List (List Char)} (h : ['.', '.'] ∉ pieces) :
    (pieces.map stepOf).filter (· ≠ .stay) = (pieces.filterMap nameOf).map .into := by
  induction pieces with
  | nil => rfl
  | cons piece rest ih =>
    have hup : piece ≠ ['.', '.'] := fun e => h (e ▸ List.mem_cons_self)
    have hrest := ih fun hmem => h (List.mem_cons_of_mem _ hmem)
    rw [List.map_cons, List.filterMap_cons]
    by_cases hidle : piece = [] ∨ piece = ['.']
    · have hstep : stepOf piece = .stay := if_pos hidle
      have hname : nameOf piece = none := if_pos hidle
      rw [hstep, hname]
      exact hrest
    · have hstep : stepOf piece = .into (String.ofList piece) := by
        unfold stepOf
        rw [if_neg hidle, if_neg hup]
      have hname : nameOf piece = some (String.ofList piece) := if_neg hidle
      rw [hstep, hname, List.filter_cons_of_pos (by simp), hrest]
      rfl

theorem plainName_of_nameOf {piece : List Char} {name : String} (hslash : '/' ∉ piece)
    (hup : piece ≠ ['.', '.']) (h : nameOf piece = some name) : PlainName name := by
  have hinner : innerComponent piece = some (.name name) := by
    rw [innerComponent_of_ne_up hup, h]
    rfl
  rcases innerComponent_eq_some hslash hinner with hclimbs | ⟨other, heq, hplain⟩
  · cases hclimbs
  · cases heq
    exact hplain

section Direct

variable {path : Path} (h : path.Direct)

include h

theorem Direct.names_plain : ∀ name ∈ path.names, PlainName name := by
  intro name hname
  obtain ⟨piece, hpiece, hname⟩ := List.mem_filterMap.mp hname
  exact plainName_of_nameOf (not_mem_of_mem_splitOn hpiece) (fun e => h.noUp (e ▸ hpiece)) hname

theorem Direct.names_ne_nil : path.names ≠ [] := by
  obtain ⟨name, hplain, hlast⟩ := h.ends
  have hname : name ∈ path.names := by
    refine List.mem_filterMap.mpr ⟨name.toList, List.mem_of_getLast? hlast, ?_⟩
    unfold nameOf
    rw [if_neg (not_or.mpr ⟨hplain.nonempty, hplain.notHere⟩), String.ofList_toList]
  exact List.ne_nil_of_mem hname

/-- **Cleaning leaves the names of a direct path, and the root if it starts there.** -/
theorem cleanComponents_of_direct :
    path.cleanComponents =
      (if path.isAbsolute then [.root] else []) ++ path.names.map .name := by
  have hup := h.noUp
  unfold cleanComponents components names
  cases hpieces : path.pieces with
  | nil => exact absurd hpieces (List.splitOn_ne_nil '/' _)
  | cons first rest =>
    rw [hpieces] at hup
    have hrest := filterMap_innerComponent fun hmem => hup (List.mem_cons_of_mem _ hmem)
    by_cases habsolute : path.isAbsolute = true
    · obtain ⟨others, hothers⟩ := pieces_of_isAbsolute habsolute
      obtain ⟨rfl, rfl⟩ := List.cons.inj (hpieces.symm.trans hothers)
      simp only [habsolute, if_true, hrest, List.foldl_cons]
      rw [foldl_cleanStep_names]
      simp [cleanStep, nameOf]
    · simp only [habsolute, Bool.false_eq_true, if_false, List.nil_append]
      unfold firstComponent
      by_cases hhere : first = ['.']
      · subst hhere
        simp only [if_true, Option.toList_some, hrest, List.singleton_append, List.foldl_cons]
        rw [cleanStep, foldl_cleanStep_names]
        simp [nameOf]
      · have hfirst := filterMap_innerComponent hup
        have happend : (innerComponent first).toList ++ rest.filterMap innerComponent =
            (first :: rest).filterMap innerComponent := by
          cases hinner : innerComponent first <;> simp [hinner]
        rw [if_neg hhere, happend, hfirst, foldl_cleanStep_names]
        simp

/-- The clean form of a direct path is read back as what cleaning leaves. -/
theorem components_clean_of_direct : path.clean.components = path.cleanComponents := by
  have hplain := h.names_plain
  obtain ⟨name, rest, hnames⟩ := List.exists_cons_of_ne_nil h.names_ne_nil
  have hclean := cleanComponents_of_direct h
  unfold clean
  by_cases habsolute : path.isAbsolute = true
  · rw [if_pos habsolute] at hclean
    rw [hclean]
    exact components_pathOf hplain
  · rw [if_neg habsolute, List.nil_append, hnames] at hclean
    rw [hclean]
    rw [hnames] at hplain
    exact (components_ofNames hplain).2

/-- The steps of a direct path, those that stay apart, go into its names. -/
theorem sameSteps_of_direct : FileTree.SameSteps (stepsOf path) (path.names.map .into) := by
  have hlast : (stepsOf path).getLast? ≠ some .stay := by
    obtain ⟨name, hplain, hend⟩ := h.ends
    unfold stepsOf
    rw [List.getLast?_map, hend, Option.map_some, FileTree.stepOf_of_plain hplain]
    exact fun e => nomatch e
  have hnames : (stepsOf path).filter (· ≠ .stay) = path.names.map .into :=
    filter_ne_stay_map_stepOf h.noUp
  rw [← hnames]
  exact .filter_ne_stay hlast

end Direct

/-! ## 3. Direct paths with one clean form -/

variable {x y : Path}

/-- **Direct paths with one clean form start alike and have the same names.** -/
theorem eq_of_clean_same (hx : x.Direct) (hy : y.Direct) (h : x.clean.same y.clean = true) :
    x.isAbsolute = y.isAbsolute ∧ x.names = y.names := by
  rw [same_iff, components_clean_of_direct hx, components_clean_of_direct hy,
    cleanComponents_of_direct hx, cleanComponents_of_direct hy] at h
  have hinj : Function.Injective Component.name := fun _ _ => Component.name.inj
  have hroot : ∀ names : List String, ∀ more : List Component,
      names ≠ [] → names.map Component.name ≠ .root :: more := by
    intro names more hne heq
    obtain ⟨name, rest, rfl⟩ := List.exists_cons_of_ne_nil hne
    cases heq
  cases hxroot : x.isAbsolute <;> cases hyroot : y.isAbsolute <;>
    simp only [hxroot, hyroot, Bool.false_eq_true, if_true, if_false, List.nil_append,
      List.singleton_append, List.cons.injEq, true_and] at h
  · exact ⟨rfl, List.map_injective_iff.mpr hinj h⟩
  · exact absurd h (hroot _ _ hx.names_ne_nil)
  · exact absurd h.symm (hroot _ _ hy.names_ne_nil)
  · exact ⟨rfl, List.map_injective_iff.mpr hinj h⟩

/-- **Direct paths with one clean form lead to the same place.** -/
theorem resolve_of_clean_same (tree : FileTree) (hx : x.Direct) (hy : y.Direct)
    (h : x.clean.same y.clean = true) : tree.resolve x = tree.resolve y := by
  obtain ⟨hroot, hnames⟩ := eq_of_clean_same hx hy h
  have hlocate : ∀ path : Path, path.Direct → tree.locate path =
      tree.walk FileTree.linkLimit (if path.isAbsolute then [] else tree.current)
        (path.names.map .into) := by
    intro path hpath
    have hne : path.text ≠ "" := by
      intro hempty
      refine hpath.names_ne_nil ?_
      unfold names pieces
      rw [hempty]
      rfl
    unfold FileTree.locate
    rw [if_neg hne, if_neg hpath.noEnd, if_neg (Nat.not_lt.mpr hpath.short),
      FileTree.walk_of_sameSteps (sameSteps_of_direct hpath)]
  unfold FileTree.resolve
  rw [hlocate x hx, hlocate y hy, hroot, hnames]

end Path

end TestScout

import Mathlib.Data.List.Basic
import TestScout.FileTree.Basic
import TestScout.Path.Clean
import TestScout.Proofs.Text.Cutting

/-!
# Absolute paths as lists of names

A clean absolute path says nothing but which names lead from the root to a place, so it is the path
of a location. Names are plain: not empty, without slashes, and neither `.` nor `..`. Main
statements:

* `IsKept.cleanStep`: what every step of cleaning leaves in form;
* `clean_eq_pathOf`: the clean form of an absolute path is the path of plain names;
* `pieces_pathOf`, `components_pathOf`: such a path is read back as its names;
* `parent_pathOf`, `child_pathOf`: its parent drops the last name, and a child appends one;
* `exists_parent_of_fileName`: whatever ends in a name has a parent;
* `cleanAbsolute_iff`: a clean absolute path is the path of a location;
* `components_join`: what is put behind a path adds its components;
* `components_ofComponents`: what is written for components is read back as these;
* `pieces_child`: a child of any path has one piece more;
* `Above`, `above_pathOf_iff`: what lies above a path has the first of its names.
-/

namespace TestScout

/-- A name that stands for itself in a path. -/
structure PlainName (name : String) : Prop where
  nonempty : name.toList ≠ []
  notHere : name.toList ≠ ['.']
  notUp : name.toList ≠ ['.', '.']
  noSlash : '/' ∉ name.toList

instance (name : String) : Decidable (PlainName name) :=
  decidable_of_iff (name.toList ≠ [] ∧ name.toList ≠ ['.'] ∧ name.toList ≠ ['.', '.'] ∧
    '/' ∉ name.toList)
    ⟨fun ⟨hne, hhere, hup, hslash⟩ => ⟨hne, hhere, hup, hslash⟩,
      fun h => ⟨h.nonempty, h.notHere, h.notUp, h.noSlash⟩⟩

/-- Only short names do not stand for themselves. -/
theorem plainName_of_length {name : String} (hlength : 3 ≤ name.toList.length)
    (hslash : '/' ∉ name.toList) : PlainName name := by
  refine ⟨?_, ?_, ?_, hslash⟩ <;>
  · intro heq
    rw [heq] at hlength
    exact absurd hlength (by decide)

namespace Path

open FileTree (pathOf)

/-! ## 1. Components of any path -/

/-- A component inside a path: `..` or a plain name. -/
def IsInner (component : Component) : Prop :=
  component = .up ∨ ∃ name, component = .name name ∧ PlainName name

/-- A piece between slashes stands for `..`, for a plain name or for nothing. -/
theorem innerComponent_eq_some {piece : List Char} {component : Component}
    (hpiece : '/' ∉ piece) (h : innerComponent piece = some component) : IsInner component := by
  unfold innerComponent at h
  split at h
  · simp at h
  · rename_i hidle
    rw [not_or] at hidle
    split at h
    · exact Or.inl (Option.some.inj h).symm
    · rename_i hup
      refine Or.inr ⟨String.ofList piece, (Option.some.inj h).symm, ?_⟩
      exact ⟨by simpa using hidle.1, by simpa using hidle.2, by simpa using hup,
        by simpa using hpiece⟩

/-- Behind the root of an absolute path stand only `..` and plain names. -/
theorem components_of_isAbsolute {path : Path} (h : path.isAbsolute = true) :
    ∃ rest, path.components = .root :: rest ∧ ∀ component ∈ rest, IsInner component := by
  unfold components
  cases hp : path.pieces with
  | nil => exact absurd hp (List.splitOn_ne_nil '/' _)
  | cons first rest =>
    refine ⟨rest.filterMap innerComponent, by simp [h], fun component hmem => ?_⟩
    obtain ⟨piece, hpiece, hsome⟩ := List.mem_filterMap.mp hmem
    have hin : piece ∈ path.pieces := hp ▸ List.mem_cons_of_mem _ hpiece
    exact innerComponent_eq_some (not_mem_of_mem_splitOn hin) hsome

/-- The first piece of an absolute path is empty. -/
theorem pieces_of_isAbsolute {path : Path} (h : path.isAbsolute = true) :
    ∃ rest, path.pieces = [] :: rest := by
  obtain ⟨behind, htext⟩ : ∃ behind, path.text.toList = '/' :: behind :=
    List.head?_eq_some_iff.mp (of_decide_eq_true h)
  refine ⟨behind.splitOn '/', ?_⟩
  unfold pieces
  rw [htext, List.splitOn_cons_eq_if_modifyHead, if_pos (by decide)]

/-- No piece stands for the root. -/
theorem innerComponent_ne_root (piece : List Char) : innerComponent piece ≠ some .root := by
  unfold innerComponent
  split
  · simp
  · split <;> simp

/-- A path that begins with the root is absolute, and what stands behind the root is what its pieces
    stand for. -/
theorem filterMap_pieces_of_components {path : Path} {rest : List Component}
    (h : path.components = .root :: rest) :
    path.isAbsolute = true ∧ path.pieces.filterMap innerComponent = rest := by
  have habsolute : path.isAbsolute = true := by
    have hroot : Component.root ∈ path.components := by
      rw [h]
      exact List.mem_cons_self
    by_contra hrelative
    unfold components at hroot
    split at hroot
    · exact absurd hroot List.not_mem_nil
    · rename_i first rest hpieces
      rw [if_neg hrelative] at hroot
      rcases List.mem_append.mp hroot with hfirst | hrest
      · rw [Option.mem_toList] at hfirst
        unfold firstComponent at hfirst
        split at hfirst
        · cases hfirst
        · exact innerComponent_ne_root _ hfirst
      · obtain ⟨piece, -, hpiece⟩ := List.mem_filterMap.mp hrest
        exact innerComponent_ne_root _ hpiece
  obtain ⟨behind, hpieces⟩ := pieces_of_isAbsolute habsolute
  unfold components at h
  rw [hpieces, habsolute] at h
  refine ⟨habsolute, ?_⟩
  rw [hpieces, List.filterMap_cons]
  exact (List.cons.inj h).2

/-- Every path has a component but the empty one. -/
theorem components_ne_nil {path : Path} (h : path.text ≠ "") : path.components ≠ [] := by
  by_cases habsolute : path.isAbsolute = true
  · obtain ⟨rest, hcomponents, -⟩ := components_of_isAbsolute habsolute
    rw [hcomponents]
    exact List.cons_ne_nil _ _
  · obtain ⟨c, rest, htext⟩ :=
      List.exists_cons_of_ne_nil fun hnil => h (String.toList_eq_nil_iff.mp hnil)
    have hslash : ¬c = '/' := by simpa [isAbsolute, htext] using habsolute
    obtain ⟨first, others, hothers⟩ :=
      List.exists_cons_of_ne_nil (List.splitOn_ne_nil '/' rest)
    have hpieces : path.pieces = (c :: first) :: others := by
      unfold pieces
      rw [htext, List.splitOn_cons_eq_if_modifyHead, if_neg (by simpa using hslash), hothers,
        List.modifyHead_cons]
    have hfirst : ∃ component, firstComponent (c :: first) = some component := by
      unfold firstComponent innerComponent
      split
      · exact ⟨_, rfl⟩
      · rename_i hhere
        rw [if_neg (not_or.mpr ⟨List.cons_ne_nil _ _, hhere⟩)]
        split <;> exact ⟨_, rfl⟩
    obtain ⟨component, hcomponent⟩ := hfirst
    unfold components
    rw [hpieces]
    simp [habsolute, hcomponent]

/-- A path with a component has a text. -/
theorem text_ne_empty {path : Path} (h : path.components ≠ []) : path.text ≠ "" := by
  intro hempty
  rw [show path = ⟨""⟩ from congrArg Path.mk hempty] at h
  exact h rfl

/-! ## 2. Cleaning -/

/-- What cleaning has kept of an absolute or a relative path, the last component first: names, and
    below them the root or the steps up with which a relative path begins. -/
inductive IsKept : Bool → List Component → Prop where
  | root : IsKept true [.root]
  | ups (count : Nat) : IsKept false (List.replicate count .up)
  | name {absolute : Bool} {entry : String} {kept : List Component} :
      IsKept absolute kept → PlainName entry → IsKept absolute (.name entry :: kept)

/-- **A step of cleaning keeps what is kept in form.** -/
theorem IsKept.cleanStep {absolute : Bool} {kept : List Component} {component : Component}
    (h : IsKept absolute kept) (hcomponent : component = .here ∨ IsInner component) :
    IsKept absolute (cleanStep kept component) := by
  rcases hcomponent with rfl | rfl | ⟨entry, rfl, hentry⟩
  · exact h
  -- a step up stays at the root, follows other steps up and takes back a name
  · cases h with
    | root => exact .root
    | ups count =>
      cases count with
      | zero => exact .ups 1
      | succ count => exact .ups (count + 2)
    | name hkept _ => exact hkept
  · exact h.name hentry

theorem IsKept.foldl_cleanStep {absolute : Bool} {kept components : List Component}
    (h : IsKept absolute kept)
    (hcomponents : ∀ component ∈ components, component = .here ∨ IsInner component) :
    IsKept absolute (components.foldl Path.cleanStep kept) := by
  induction components generalizing kept with
  | nil => exact h
  | cons component rest ih =>
    rw [List.foldl_cons]
    exact ih (h.cleanStep (hcomponents component List.mem_cons_self))
      fun c hc => hcomponents c (List.mem_cons_of_mem _ hc)

/-- What is kept is the root and names, or steps up and names. -/
theorem IsKept.exists_names {absolute : Bool} {kept : List Component} (h : IsKept absolute kept) :
    ∃ (count : Nat) (names : List String), (∀ name ∈ names, PlainName name) ∧
      kept.reverse = (if absolute then [.root] else List.replicate count .up) ++
        names.map .name := by
  induction h with
  | root => exact ⟨0, [], by simp, rfl⟩
  | ups count => exact ⟨count, [], by simp, by simp⟩
  | @name _ entry _ _ hentry ih =>
    obtain ⟨count, names, hnames, hkept⟩ := ih
    refine ⟨count, names ++ [entry], fun name hname => ?_, ?_⟩
    · rcases List.mem_append.mp hname with hname | hname
      · exact hnames name hname
      · exact List.mem_singleton.mp hname ▸ hentry
    · rw [List.reverse_cons, hkept, List.map_append, List.append_assoc]
      rfl

theorem isKept_of_isAbsolute {path : Path} (h : path.isAbsolute = true) :
    IsKept true path.cleanComponents.reverse := by
  obtain ⟨rest, hcomponents, hrest⟩ := components_of_isAbsolute h
  unfold cleanComponents
  rw [List.reverse_reverse, hcomponents, List.foldl_cons]
  exact IsKept.root.foldl_cleanStep fun component hmem => Or.inr (hrest component hmem)

/-- **The clean form of an absolute path is the path of plain names.** -/
theorem clean_eq_pathOf {path : Path} (h : path.isAbsolute = true) :
    ∃ location : Location, (∀ name ∈ location, PlainName name) ∧
      path.clean = pathOf location := by
  obtain ⟨_, names, hnames, hform⟩ := (isKept_of_isAbsolute h).exists_names
  rw [List.reverse_reverse, if_pos rfl] at hform
  refine ⟨names, hnames, ?_⟩
  unfold clean
  rw [hform]
  rfl

/-! ## 3. The text of names -/

/-- The names with a slash before each. -/
def slashed (names : List String) : List Char :=
  names.flatMap fun name => '/' :: name.toList

theorem intercalate_slash (pieces : List (List Char)) :
    ['/'].intercalate ([] :: pieces) = pieces.flatMap fun piece => '/' :: piece := by
  induction pieces with
  | nil => rfl
  | cons piece rest ih =>
    rw [List.intercalate_cons_cons, List.flatMap_cons, ← ih]
    cases rest <;> simp

theorem pathOf_eq (location : Location) (h : location ≠ []) :
    pathOf location = ⟨String.ofList (slashed location)⟩ := by
  obtain ⟨name, rest, rfl⟩ := List.exists_cons_of_ne_nil h
  have hmap : ((Component.root :: (name :: rest).map Component.name).map componentText) =
      [] :: (name :: rest).map String.toList := by
    simp [componentText]
  have htext : pathOf (name :: rest) =
      ⟨String.ofList (['/'].intercalate
        ((Component.root :: (name :: rest).map Component.name).map componentText))⟩ := rfl
  rw [htext, hmap, intercalate_slash, List.flatMap_map]
  rfl

theorem isAbsolute_pathOf (location : Location) : (pathOf location).isAbsolute = true := by
  cases location with
  | nil => decide
  | cons name rest =>
    rw [pathOf_eq _ (List.cons_ne_nil _ _)]
    simp [isAbsolute, slashed]

/-- **The pieces of such a path are its names, behind the empty piece before the first slash.** -/
theorem pieces_pathOf {location : Location} (hne : location ≠ [])
    (hplain : ∀ name ∈ location, PlainName name) :
    (pathOf location).pieces = [] :: location.map String.toList := by
  have hslashed : slashed location = ['/'].intercalate ([] :: location.map String.toList) := by
    rw [intercalate_slash, List.flatMap_map]
    rfl
  rw [pathOf_eq _ hne]
  unfold pieces
  rw [String.toList_ofList, hslashed, List.splitOn_intercalate]
  · intro piece hpiece
    rcases List.mem_cons.mp hpiece with rfl | hpiece
    · exact List.not_mem_nil
    · obtain ⟨name, hname, rfl⟩ := List.mem_map.mp hpiece
      exact (hplain name hname).noSlash
  · exact List.cons_ne_nil _ _

theorem innerComponent_of_plain {name : String} (h : PlainName name) :
    innerComponent name.toList = some (.name name) := by
  unfold innerComponent
  rw [if_neg (not_or.mpr ⟨h.nonempty, h.notHere⟩), if_neg h.notUp, String.ofList_toList]

theorem filterMap_innerComponent_of_plain {names : List String}
    (hplain : ∀ name ∈ names, PlainName name) :
    (names.map String.toList).filterMap innerComponent = names.map .name := by
  rw [List.filterMap_map, ← List.filterMap_eq_map]
  exact List.filterMap_congr fun name hname => innerComponent_of_plain (hplain name hname)

/-- **The components of such a path are the root and its names.** -/
theorem components_pathOf {location : Location} (hplain : ∀ name ∈ location, PlainName name) :
    (pathOf location).components = .root :: location.map .name := by
  cases location with
  | nil => decide
  | cons name rest =>
    unfold components
    rw [pieces_pathOf (List.cons_ne_nil _ _) hplain]
    simp only [isAbsolute_pathOf, if_true, filterMap_innerComponent_of_plain hplain]

theorem components_pathOf_ne_nil (location : Location) : (pathOf location).components ≠ [] := by
  obtain ⟨rest, hcomponents, -⟩ := components_of_isAbsolute (isAbsolute_pathOf location)
  rw [hcomponents]
  exact List.cons_ne_nil _ _

theorem fileName_pathOf {above : Location} {name : String}
    (hplain : ∀ n ∈ above ++ [name], PlainName n) :
    (pathOf (above ++ [name])).fileName = some name := by
  unfold fileName
  rw [components_pathOf hplain, List.map_append, List.map_singleton, ← List.cons_append,
    List.getLast?_concat]

/-! ## 4. Parents and children -/

theorem idle_eq_false_of_plain {name : String} (h : PlainName name) (isFirst : Bool) :
    idle name.toList isFirst = false := by
  simp [idle, h.nonempty, h.notHere]

/-- **The parent of such a path drops its last name.** -/
theorem parent_pathOf {above : Location} {name : String}
    (hplain : ∀ n ∈ above ++ [name], PlainName n) :
    (pathOf (above ++ [name])).parent = some (pathOf above) := by
  have hname : PlainName name := hplain name (by simp)
  have hpieces : (pathOf (above ++ [name])).pieces.reverse =
      name.toList :: ((above.map String.toList).reverse ++ [[]]) := by
    rw [pieces_pathOf (by simp) hplain]
    simp
  unfold parent
  rw [hpieces, dropIdle, idle_eq_false_of_plain hname]
  simp only [Bool.false_eq_true, if_false]
  rcases List.eq_nil_or_concat' above with rfl | ⟨front, last, rfl⟩
  · simp [dropIdle, idle, isAbsolute_pathOf]
    rfl
  · have hlast : PlainName last := hplain last (by simp)
    have hkept : dropIdle (((front ++ [last]).map String.toList).reverse ++ [[]]) =
        ((front ++ [last]).map String.toList).reverse ++ [[]] := by
      simp [dropIdle, idle_eq_false_of_plain hlast]
    have htext : ['/'].intercalate ([] :: (front ++ [last]).map String.toList) =
        slashed (front ++ [last]) := by
      rw [intercalate_slash, List.flatMap_map]
      rfl
    rw [hkept, pathOf_eq (front ++ [last]) (by simp), ← htext]
    simp

/-- A path does not end in a slash when it ends in a plain name. -/
theorem getLast?_slashed (front : Location) {last : String} (h : PlainName last) :
    (slashed (front ++ [last])).getLast? ≠ some '/' := by
  have hlast : (slashed (front ++ [last])).getLast? = last.toList.getLast? := by
    obtain ⟨c, rest, hc⟩ := List.exists_cons_of_ne_nil h.nonempty
    simp [slashed, hc, List.getLast?_append, List.getLast?_cons]
  rw [hlast]
  exact fun e => h.noSlash (List.mem_of_getLast? e)

theorem isAbsolute_of_plain {name : String} (h : PlainName name) :
    (Path.mk name).isAbsolute = false := by
  unfold isAbsolute
  rw [decide_eq_false_iff_not]
  exact fun e => h.noSlash (List.mem_of_head? e)

/-- **A child of such a path has one name more.** -/
theorem child_pathOf {above : Location} {name : String}
    (hplain : ∀ n ∈ above ++ [name], PlainName n) :
    (pathOf above).child name = pathOf (above ++ [name]) := by
  have hname : PlainName name := hplain name (by simp)
  have hrelative : (Path.mk name).isAbsolute = false := isAbsolute_of_plain hname
  rw [pathOf_eq (above ++ [name]) (by simp)]
  unfold child join
  rcases List.eq_nil_or_concat' above with rfl | ⟨front, last, rfl⟩
  · have hroot : pathOf [] = ⟨"/"⟩ := rfl
    rw [hroot]
    simp [hrelative, slashed]
  · have hlast : PlainName last := hplain last (by simp)
    rw [pathOf_eq (front ++ [last]) (by simp)]
    have hne : String.ofList (slashed (front ++ [last])) ≠ "" := by
      simp [slashed]
    have hend := getLast?_slashed front hlast
    simp only [hrelative, Bool.false_eq_true, hne, or_self, if_false, String.toList_ofList, hend]
    congr 1
    simp [slashed, ← String.toList_inj]

/-- A clean absolute path that ends in a name is the path of that name behind others. -/
theorem exists_pathOf_of_clean {path : Path} {name : String} (habsolute : path.isAbsolute = true)
    (hclean : path.clean = path) (hname : path.fileName = some name) :
    ∃ above : Location, (∀ n ∈ above ++ [name], PlainName n) ∧ path = pathOf (above ++ [name]) := by
  obtain ⟨location, hplain, hpath⟩ := clean_eq_pathOf habsolute
  rw [hclean] at hpath
  subst hpath
  rcases List.eq_nil_or_concat' location with rfl | ⟨above, last, rfl⟩
  · simp [fileName, components_pathOf hplain] at hname
  · rw [fileName_pathOf hplain] at hname
    obtain rfl := Option.some.inj hname
    exact ⟨above, hplain, rfl⟩

/-! ## 5. Parents of any path -/

/-- Pieces that all mean nothing are empty or `.`, the first of all being empty. -/
theorem eq_of_dropIdle_eq_nil {reversed : List (List Char)} (h : dropIdle reversed = []) :
    ∀ piece ∈ reversed, piece = [] ∨ piece = ['.'] ∧ reversed.getLast? = some [] := by
  induction reversed with
  | nil => simp
  | cons piece rest ih =>
    rw [dropIdle] at h
    split at h
    · rename_i hidle
      have hrest := ih h
      cases rest with
      | nil =>
        have hempty : piece = [] := by simpa [idle] using hidle
        exact fun p hp => Or.inl (List.mem_singleton.mp hp ▸ hempty)
      | cons next more =>
        have hlast : ∀ {p : List Char}, p ∈ next :: more →
            p = [] ∨ p = ['.'] ∧ (piece :: next :: more).getLast? = some [] := by
          intro p hp
          simpa using hrest p hp
        have hend : (next :: more).getLast? = some [] := by
          rcases hrest next List.mem_cons_self with hn | hn
          · cases hm : (next :: more).getLast? with
            | none => simp at hm
            | some p =>
              rcases hrest p (List.mem_of_getLast? hm) with rfl | ⟨-, hp⟩
              · rfl
              · rw [← hm, hp]
          · exact hn.2
        intro p hp
        rcases List.mem_cons.mp hp with rfl | hp
        · have : p = [] ∨ p = ['.'] := by simpa [idle] using hidle
          exact this.imp id fun e => ⟨e, by simpa using hend⟩
        · exact hlast hp
    · simp at h

/-- **Whatever ends in a name has a parent.** -/
theorem exists_parent_of_fileName {path : Path} {name : String} (h : path.fileName = some name) :
    ∃ parent, path.parent = some parent := by
  unfold parent
  cases hd : dropIdle path.pieces.reverse with
  | cons last before =>
    dsimp only
    split <;> exact ⟨_, rfl⟩
  | nil =>
    -- all pieces mean nothing, so there is no name among the components
    have hall := eq_of_dropIdle_eq_nil hd
    have hinner : ∀ piece ∈ path.pieces, innerComponent piece = none := by
      intro piece hpiece
      rcases hall piece (List.mem_reverse.mpr hpiece) with rfl | ⟨rfl, -⟩ <;> rfl
    exfalso
    unfold fileName components at h
    cases hp : path.pieces with
    | nil => simp [hp] at h
    | cons first rest =>
      have hrest : rest.filterMap innerComponent = [] := by
        rw [List.filterMap_eq_nil_iff]
        exact fun piece hpiece => hinner piece (hp ▸ List.mem_cons_of_mem _ hpiece)
      have hfirst : innerComponent first = none := hinner first (hp ▸ List.mem_cons_self)
      simp only [hp, hrest, firstComponent, hfirst] at h
      split at h
      · rename_i entry hlast
        split at hlast
        · simp at hlast
        · split at hlast <;> simp at hlast
      · simp at h

/-! ## 6. Clean absolute paths -/

/-- An absolute path that is its own clean form. -/
structure CleanAbsolute (path : Path) : Prop where
  absolute : path.isAbsolute = true
  clean : path.clean = path

/-- Cleaning keeps names. -/
theorem foldl_cleanStep_names (names : List String) (kept : List Component) :
    (names.map Component.name).foldl cleanStep kept =
      (names.map Component.name).reverse ++ kept := by
  induction names generalizing kept with
  | nil => rfl
  | cons name rest ih =>
    rw [List.map_cons, List.foldl_cons, ih, List.reverse_cons, List.append_assoc]
    rfl

/-- Names behind the root are clean. -/
theorem clean_of_components {path : Path} {location : Location}
    (h : path.components = .root :: location.map .name) : path.clean = pathOf location := by
  have hcomponents : path.cleanComponents = .root :: location.map .name := by
    unfold cleanComponents
    rw [h, List.foldl_cons, foldl_cleanStep_names]
    simp [cleanStep]
  unfold clean
  rw [hcomponents]
  rfl

theorem clean_pathOf {location : Location} (hplain : ∀ name ∈ location, PlainName name) :
    (pathOf location).clean = pathOf location :=
  clean_of_components (components_pathOf hplain)

/-- **A clean absolute path is the path of a location.** -/
theorem cleanAbsolute_iff {path : Path} :
    path.CleanAbsolute ↔
      ∃ location : Location, (∀ name ∈ location, PlainName name) ∧ path = pathOf location := by
  constructor
  · intro h
    obtain ⟨location, hplain, hclean⟩ := clean_eq_pathOf h.absolute
    exact ⟨location, hplain, h.clean.symm.trans hclean⟩
  · rintro ⟨location, hplain, rfl⟩
    exact ⟨isAbsolute_pathOf location, clean_pathOf hplain⟩

theorem cleanAbsolute_child {dir : Path} {name : String} (h : dir.CleanAbsolute)
    (hname : PlainName name) : (dir.child name).CleanAbsolute := by
  obtain ⟨above, hplain, rfl⟩ := cleanAbsolute_iff.mp h
  have hall : ∀ n ∈ above ++ [name], PlainName n := by
    intro n hn
    rcases List.mem_append.mp hn with hn | hn
    · exact hplain n hn
    · exact List.mem_singleton.mp hn ▸ hname
  exact cleanAbsolute_iff.mpr ⟨above ++ [name], hall, child_pathOf hall⟩

/-- Clean absolute paths with the same components are one path. -/
theorem eq_of_same {x y : Path} (hx : x.CleanAbsolute) (hy : y.CleanAbsolute)
    (h : x.same y = true) : x = y := by
  obtain ⟨location, hplain, rfl⟩ := cleanAbsolute_iff.mp hx
  obtain ⟨other, hother, rfl⟩ := cleanAbsolute_iff.mp hy
  rw [same_iff, components_pathOf hplain, components_pathOf hother] at h
  have hnames : location.map Component.name = other.map Component.name := (List.cons.inj h).2
  have hinjective : Function.Injective Component.name := fun _ _ heq => Component.name.inj heq
  exact congrArg pathOf (List.map_injective_iff.mpr hinjective hnames)

/-! ## 7. Names behind any path -/

/-- **A relative path behind a directory adds its pieces**, the first of them in place of the empty
    one behind a slash at the end. -/
theorem pieces_join {dir path : Path} (hdir : dir.text ≠ "") (hpath : path.isAbsolute = false) :
    (dir.join path).isAbsolute = dir.isAbsolute ∧
      ∃ front, front ≠ [] ∧ (dir.join path).pieces = front ++ path.pieces ∧
        (dir.pieces = front ∨ dir.pieces = front ++ [[]]) := by
  have hhead (behind : List Char) : (dir.text.toList ++ behind).head? = dir.text.toList.head? := by
    obtain ⟨c, rest, hc⟩ :=
      List.exists_cons_of_ne_nil fun h => hdir (String.toList_eq_nil_iff.mp h)
    rw [hc]
    rfl
  unfold join
  rw [if_neg (by simp [hpath, hdir])]
  split
  · rename_i hend
    obtain ⟨front, hfront⟩ := List.getLast?_eq_some_iff.mp hend
    refine ⟨by simp [isAbsolute, hhead], front.splitOn '/', List.splitOn_ne_nil _ _, ?_, Or.inr ?_⟩
    · simp [pieces, hfront, List.splitOn_append_cons_self]
    · simp [pieces, hfront, List.splitOn_append_cons_self]
  · refine ⟨by simp [isAbsolute, hhead], dir.pieces, List.splitOn_ne_nil _ _, ?_, Or.inl rfl⟩
    simp [pieces, List.splitOn_append_cons_self]

/-- **A relative path behind a directory adds what its pieces stand for inside a path**, where a `.`
    in front means nothing. -/
theorem components_join_pieces {dir path : Path} (hdir : dir.text ≠ "")
    (hpath : path.isAbsolute = false) :
    (dir.join path).components = dir.components ++ path.pieces.filterMap innerComponent := by
  obtain ⟨habsolute, front, hfront, hpieces, hbefore⟩ := pieces_join hdir hpath
  obtain ⟨first, rest, rfl⟩ := List.exists_cons_of_ne_nil hfront
  have hkept : dir.components = if dir.isAbsolute then .root :: rest.filterMap innerComponent
      else (firstComponent first).toList ++ rest.filterMap innerComponent := by
    unfold components
    rcases hbefore with h | h
    · rw [h]
    · -- the empty piece behind the last slash means nothing
      rw [h, List.cons_append]
      simp [innerComponent]
  rw [hkept]
  conv_lhs => unfold components
  rw [hpieces, List.cons_append]
  simp only [habsolute, List.filterMap_append]
  split <;> simp

/-- The pieces of a relative path stand for its components inside a path too, but for a `.` in
    front. -/
theorem filterMap_pieces_of_relative {path : Path} (hpath : path.isAbsolute = false) :
    path.pieces.filterMap innerComponent = path.components ∨
      path.components = .here :: path.pieces.filterMap innerComponent := by
  cases hpieces : path.pieces with
  | nil => exact absurd hpieces (List.splitOn_ne_nil '/' _)
  | cons first rest =>
    unfold components
    rw [hpieces]
    simp only [hpath, Bool.false_eq_true, if_false, firstComponent]
    by_cases hfirst : first = ['.']
    · subst hfirst
      exact Or.inr rfl
    · left
      rw [if_neg hfirst]
      cases hsome : innerComponent first <;> simp [hsome]

/-- **A relative path behind a directory adds its components**, if it does not start with `.`, which
    only means something in front. -/
theorem components_join {dir path : Path} (hpath : path.isAbsolute = false)
    (hhere : .here ∉ path.components) :
    (dir.join path).components = dir.components ++ path.components := by
  by_cases hdir : dir = ⟨""⟩
  · subst hdir
    have hempty : (Path.mk "").components = [] := rfl
    unfold join
    rw [if_pos (Or.inr rfl), hempty, List.nil_append]
  · have hdir : dir.text ≠ "" := fun h => hdir (congrArg Path.mk h)
    rw [components_join_pieces hdir hpath]
    rcases filterMap_pieces_of_relative hpath with h | h
    · rw [h]
    · rw [h] at hhere
      exact absurd List.mem_cons_self hhere

/-- What is written for such a component is read as it, wherever it stands. -/
theorem IsInner.innerComponent {component : Component} (h : IsInner component) :
    '/' ∉ componentText component ∧ componentText component ≠ [] ∧
      componentText component ≠ ['.'] ∧
      Path.innerComponent (componentText component) = some component := by
  rcases h with rfl | ⟨name, rfl, hname⟩
  · decide
  · exact ⟨hname.noSlash, hname.nonempty, hname.notHere, innerComponent_of_plain hname⟩

/-- **A relative path that is put together of such components is read back as these.** -/
theorem components_ofComponents {components : List Component} (hne : components ≠ [])
    (hinner : ∀ component ∈ components, IsInner component) :
    (ofComponents components).isAbsolute = false ∧
      (ofComponents components).components = components := by
  obtain ⟨first, rest, rfl⟩ := List.exists_cons_of_ne_nil hne
  obtain ⟨-, hfirstEmpty, hfirstHere, hfirst⟩ := (hinner first List.mem_cons_self).innerComponent
  have htext : (ofComponents (first :: rest)).text.toList =
      ['/'].intercalate ((first :: rest).map componentText) := by
    unfold ofComponents
    split
    · rename_i heq
      obtain rfl := (List.cons.inj heq).1
      exact absurd hfirst (by decide)
    · exact String.toList_ofList
  have hpieces : (ofComponents (first :: rest)).pieces = (first :: rest).map componentText := by
    unfold pieces
    rw [htext, List.splitOn_intercalate]
    · intro piece hpiece
      obtain ⟨component, hcomponent, rfl⟩ := List.mem_map.mp hpiece
      exact (hinner component hcomponent).innerComponent.1
    · exact List.cons_ne_nil _ _
  have hrelative : ¬ (ofComponents (first :: rest)).isAbsolute = true := by
    intro habsolute
    obtain ⟨others, hothers⟩ := pieces_of_isAbsolute habsolute
    rw [hpieces] at hothers
    exact hfirstEmpty (List.cons.inj hothers).1
  have hrest : (rest.map componentText).filterMap Path.innerComponent = rest := by
    rw [List.filterMap_map]
    conv_rhs => rw [← List.filterMap_some (l := rest)]
    exact List.filterMap_congr fun component hcomponent =>
      (hinner component (List.mem_cons_of_mem _ hcomponent)).innerComponent.2.2.2
  refine ⟨Bool.eq_false_iff.mpr hrelative, ?_⟩
  unfold Path.components
  rw [hpieces]
  simp only [List.map_cons, hrelative, if_false, firstComponent, hfirstHere, hfirst, hrest,
    Option.toList_some, List.singleton_append]
  rfl

/-- A relative path that is put together of plain names is read back as these. -/
theorem components_ofNames {name : String} {rest : List String}
    (hplain : ∀ n ∈ name :: rest, PlainName n) :
    (ofComponents ((name :: rest).map .name)).isAbsolute = false ∧
      (ofComponents ((name :: rest).map .name)).components = (name :: rest).map .name := by
  refine components_ofComponents (List.cons_ne_nil _ _) fun component hcomponent => ?_
  obtain ⟨n, hn, rfl⟩ := List.mem_map.mp hcomponent
  exact Or.inr ⟨n, rfl, hplain n hn⟩

/-- **Plain names behind a directory are its components more.** -/
theorem components_join_ofNames (dir : Path) {name : String} {rest : List String}
    (hplain : ∀ n ∈ name :: rest, PlainName n) :
    (dir.join (ofComponents ((name :: rest).map .name))).components =
      dir.components ++ (name :: rest).map .name := by
  obtain ⟨hrelative, hcomponents⟩ := components_ofNames hplain
  have hhere : .here ∉ (ofComponents ((name :: rest).map .name)).components := by
    rw [hcomponents]
    simp
  rw [components_join hrelative hhere, hcomponents]

/-- The path of one plain name is that name. -/
theorem ofComponents_name (name : String) : ofComponents [.name name] = ⟨name⟩ := by
  simp [ofComponents, componentText]

theorem components_name {name : String} (hname : PlainName name) :
    (Path.mk name).components = [.name name] := by
  have hplain : ∀ n ∈ [name], PlainName n := fun n hn => List.mem_singleton.mp hn ▸ hname
  have hnames := (components_ofNames hplain).2
  rwa [List.map_singleton, ofComponents_name] at hnames

/-- A plain name is its own clean form. -/
theorem clean_name {name : String} (hname : PlainName name) : (Path.mk name).clean = ⟨name⟩ := by
  have hcomponents : (Path.mk name).cleanComponents = [.name name] := by
    unfold cleanComponents
    rw [components_name hname]
    rfl
  unfold clean
  rw [hcomponents]
  exact ofComponents_name name

/-- **A child has one component more than its directory.** -/
theorem components_child (dir : Path) {name : String} (hname : PlainName name) :
    (dir.child name).components = dir.components ++ [.name name] := by
  have hcomponents := components_name hname
  unfold child
  rw [components_join (isAbsolute_of_plain hname) (by simp [hcomponents]), hcomponents]

/-- **A child has one piece more than its directory**, in place of the empty one behind a slash at
    the end. -/
theorem pieces_child {dir : Path} {name : String} (hdir : dir.text ≠ "") (hname : PlainName name) :
    (dir.child name).isAbsolute = dir.isAbsolute ∧
      ∃ front, (dir.child name).pieces = front ++ [name.toList] ∧
        (dir.pieces = front ∨ dir.pieces = front ++ [[]]) := by
  obtain ⟨habsolute, front, -, hpieces, hbefore⟩ := pieces_join hdir (isAbsolute_of_plain hname)
  refine ⟨habsolute, front, ?_, hbefore⟩
  have hself : (Path.mk name).pieces = [name.toList] := List.splitOn_eq_singleton hname.noSlash
  rw [← hself]
  exact hpieces

theorem child_ne_empty {dir : Path} {name : String} (hdir : dir.text ≠ "")
    (hname : PlainName name) : (dir.child name).text ≠ "" := by
  intro hempty
  obtain ⟨-, front, hpieces, -⟩ := pieces_child hdir hname
  have hsplit : (dir.child name).pieces = [] ++ [[]] := by
    unfold pieces
    rw [hempty]
    rfl
  rw [hsplit] at hpieces
  exact hname.nonempty (List.singleton_inj.mp (List.append_inj' hpieces rfl).2).symm

/-! ## 8. What lies above a path -/

/-- A path is another one or lies above it: its components are the first ones of the other's. -/
def Above (dir path : Path) : Prop :=
  dir.components <+: path.components

instance (dir path : Path) : Decidable (dir.Above path) :=
  inferInstanceAs (Decidable (_ <+: _))

theorem startsWith_iff {path dir : Path} : path.startsWith dir = true ↔ dir.Above path :=
  List.isPrefixOf_iff_prefix

section

variable {location place : Location}

/-- What lies above a path of names has the first of these names. -/
theorem Above.exists_place {path : Path} (hplain : ∀ name ∈ location, PlainName name)
    (hne : path.components ≠ []) (h : path.Above (pathOf location)) :
    ∃ place, place <+: location ∧ path.components = .root :: place.map .name := by
  obtain ⟨first, rest, hcomponents⟩ := List.exists_cons_of_ne_nil hne
  unfold Above at h
  rw [hcomponents, components_pathOf hplain, List.cons_prefix_cons] at h
  obtain ⟨hroot, hrest⟩ := h
  obtain ⟨place, hplace, hnames⟩ := List.prefix_map_iff.mp hrest
  exact ⟨place, hplace, by rw [hcomponents, hroot, hnames]⟩

theorem above_pathOf_iff (hplain : ∀ name ∈ location, PlainName name)
    (hplain' : ∀ name ∈ place, PlainName name) :
    (pathOf place).Above (pathOf location) ↔ place <+: location := by
  have hinjective : Function.Injective Component.name := fun _ _ heq => Component.name.inj heq
  unfold Above
  rw [components_pathOf hplain, components_pathOf hplain', List.cons_prefix_cons]
  constructor
  · intro h
    obtain ⟨front, hfront, heq⟩ := List.prefix_map_iff.mp h.2
    rwa [List.map_injective_iff.mpr hinjective heq]
  · exact fun h => ⟨rfl, h.map _⟩

end

end Path

end TestScout

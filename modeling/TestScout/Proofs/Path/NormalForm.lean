import TestScout.Proofs.Path.Names

/-!
# Clean paths as a normal form

Cleaning keeps a stack: names and steps up that could not be undone. The stack can be put down and
taken up again at any point, which is why a clean path may stand for its origin wherever paths are
joined; and each step on it leads to the same place as the component that it answers, which is why
clean paths differ exactly if they lead to different places from somewhere. Main statements:

* `isKept_cleanComponents`, `normal_clean`: what cleaning leaves;
* `cleanComponents_clean`, `cleanComponents_join`: the stack is taken up where it was put down;
* `foldl_follow_cleanComponents`: what is kept of a path leads where the path leads;
* `cleanComponents_eq_of_destination`: paths that lead to the same places have one clean form;
* `clean_normalForm`: all together.
-/

namespace TestScout.Path

/-! ## 1. What is kept -/

/-- The pieces of a path stand for components inside a path. -/
theorem isInner_of_mem_pieces {path : Path} {component : Component}
    (h : component ∈ path.pieces.filterMap innerComponent) : IsInner component := by
  obtain ⟨piece, hpiece, hsome⟩ := List.mem_filterMap.mp h
  exact innerComponent_eq_some (not_mem_of_mem_splitOn hpiece) hsome

/-- The components of a relative path are such components, but for a `.` in front. -/
theorem mem_components_of_relative {path : Path} (hpath : path.isAbsolute = false)
    {component : Component} (h : component ∈ path.components) :
    component = .here ∨ IsInner component := by
  rcases filterMap_pieces_of_relative hpath with hsame | hhere
  · rw [← hsame] at h
    exact Or.inr (isInner_of_mem_pieces h)
  · rw [hhere] at h
    exact (List.mem_cons.mp h).imp id isInner_of_mem_pieces

/-- **What is kept of a path in the end is in form.** -/
theorem isKept_cleanComponents (path : Path) :
    IsKept path.isAbsolute path.cleanComponents.reverse := by
  cases hpath : path.isAbsolute with
  | true => exact isKept_of_isAbsolute hpath
  | false =>
    unfold cleanComponents
    rw [List.reverse_reverse]
    exact (IsKept.ups 0).foldl_cleanStep fun component hmem => mem_components_of_relative hpath hmem

/-! ## 2. Clean paths are read as they were kept -/

/-- A clean path with a component is written as its components, and is read back as them. -/
theorem clean_eq_ofComponents {path : Path} (hne : path.cleanComponents ≠ []) :
    path.clean = ofComponents path.cleanComponents ∧
      path.clean.isAbsolute = path.isAbsolute ∧
      path.clean.components = path.cleanComponents := by
  have hclean : path.clean = ofComponents path.cleanComponents := by
    unfold clean
    split
    · rename_i hnil
      exact absurd hnil hne
    · rfl
  obtain ⟨count, names, hnames, hform⟩ := (isKept_cleanComponents path).exists_names
  rw [List.reverse_reverse] at hform
  refine ⟨hclean, ?_⟩
  rw [hclean]
  cases hpath : path.isAbsolute with
  | true =>
    rw [hpath, if_pos rfl, List.singleton_append] at hform
    rw [hform]
    exact ⟨isAbsolute_pathOf names, components_pathOf hnames⟩
  | false =>
    refine components_ofComponents hne fun component hmem => ?_
    rw [hform, hpath, if_neg Bool.false_ne_true] at hmem
    rcases List.mem_append.mp hmem with hup | hname
    · exact Or.inl (List.eq_of_mem_replicate hup)
    · obtain ⟨name, hin, rfl⟩ := List.mem_map.mp hname
      exact Or.inr ⟨name, rfl, hnames name hin⟩

/-- Where nothing is left, the clean path is `.` and the path was relative. -/
theorem clean_eq_here {path : Path} (h : path.cleanComponents = []) :
    path.clean = ⟨"."⟩ ∧ path.isAbsolute = false := by
  obtain ⟨count, names, -, hform⟩ := (isKept_cleanComponents path).exists_names
  refine ⟨by unfold clean; rw [h], ?_⟩
  cases hpath : path.isAbsolute with
  | false => rfl
  | true =>
    rw [h, hpath, if_pos rfl] at hform
    cases hform

/-- What is kept is kept again when it is cleaned. -/
theorem IsKept.foldl_reverse {absolute : Bool} {kept : List Component} (h : IsKept absolute kept) :
    kept.reverse.foldl Path.cleanStep [] = kept := by
  induction h with
  | root => rfl
  | ups count =>
    rw [List.reverse_replicate]
    induction count with
    | zero => rfl
    | succ count ih =>
      conv_lhs => rw [List.replicate_succ', List.foldl_append, ih]
      cases count <;> rfl
  | name _ _ ih =>
    rw [List.reverse_cons, List.foldl_append, ih]
    rfl

/-- **Cleaning a clean path keeps what it has.** -/
theorem cleanComponents_clean (path : Path) :
    path.clean.cleanComponents = path.cleanComponents := by
  by_cases hne : path.cleanComponents = []
  · rw [hne, (clean_eq_here hne).1]
    rfl
  · have hkept := (isKept_cleanComponents path).foldl_reverse
    rw [List.reverse_reverse] at hkept
    conv_lhs => unfold cleanComponents
    rw [(clean_eq_ofComponents hne).2.2, hkept, List.reverse_reverse]

theorem isAbsolute_clean (path : Path) : path.clean.isAbsolute = path.isAbsolute := by
  by_cases hne : path.cleanComponents = []
  · obtain ⟨hclean, hpath⟩ := clean_eq_here hne
    rw [hclean, hpath]
    rfl
  · exact (clean_eq_ofComponents hne).2.1

/-- Paths of which the same is kept have one clean form. -/
theorem clean_eq_of_cleanComponents {x y : Path} (h : x.cleanComponents = y.cleanComponents) :
    x.clean = y.clean := by
  unfold clean
  rw [h]

theorem clean_eq_iff {x y : Path} : x.clean = y.clean ↔ x.cleanComponents = y.cleanComponents := by
  refine ⟨fun h => ?_, clean_eq_of_cleanComponents⟩
  rw [← cleanComponents_clean x, h, cleanComponents_clean]

/-! ## 3. Joined paths -/

/-- **Behind a directory cleaning goes on from what it kept of the directory.** -/
theorem cleanComponents_join {dir path : Path} (hpath : path.isAbsolute = false) :
    (dir.join path).cleanComponents =
      (path.components.foldl cleanStep dir.cleanComponents.reverse).reverse := by
  have hpieces (kept : List Component) :
      (path.pieces.filterMap innerComponent).foldl cleanStep kept =
        path.components.foldl cleanStep kept := by
    rcases filterMap_pieces_of_relative hpath with hsame | hhere
    · rw [hsame]
    · rw [hhere]
      rfl
  unfold cleanComponents
  rw [List.reverse_reverse]
  by_cases hdir : dir = ⟨""⟩
  · subst hdir
    unfold join
    rw [if_pos (Or.inr rfl)]
    rfl
  · have hdir : dir.text ≠ "" := fun h => hdir (congrArg Path.mk h)
    rw [components_join_pieces hdir hpath, List.foldl_append, hpieces]

/-- **A clean directory may stand for its origin in front of a path.** -/
theorem clean_join (dir path : Path) : (dir.join path).clean = (dir.clean.join path).clean := by
  cases hpath : path.isAbsolute with
  | true =>
    unfold join
    rw [if_pos (Or.inl hpath), if_pos (Or.inl hpath)]
  | false =>
    refine clean_eq_of_cleanComponents ?_
    rw [cleanComponents_join hpath, cleanComponents_join hpath, cleanComponents_clean]

/-! ## 4. Where paths lead -/

/-- Where a component leads from a place, if no link is there. The parent of the root is the
    root. -/
def follow (place : Location) : Component → Location
  | .root => []
  | .here => place
  | .up => place.dropLast
  | .name entry => place ++ [entry]

/-- Where a path leads from a directory, component by component. -/
def destination (current : Location) (path : Path) : Location :=
  path.components.foldl follow current

/-- **What is kept after a step leads where the step leads from what was kept.** -/
theorem foldl_follow_cleanStep (current : Location) (kept : List Component)
    (component : Component) :
    (cleanStep kept component).reverse.foldl follow current =
      follow (kept.reverse.foldl follow current) component := by
  cases component with
  | root => simp [cleanStep, follow]
  | here => rfl
  | name entry => simp [cleanStep, follow]
  | up =>
    cases kept with
    | nil => rfl
    | cons last before => cases last <;> simp [cleanStep, follow]

theorem foldl_follow_foldl_cleanStep (current : Location) (components kept : List Component) :
    (components.foldl cleanStep kept).reverse.foldl follow current =
      components.foldl follow (kept.reverse.foldl follow current) := by
  induction components generalizing kept with
  | nil => rfl
  | cons component rest ih =>
    rw [List.foldl_cons, ih, foldl_follow_cleanStep, List.foldl_cons]

/-- What is kept of a path leads where the path leads. -/
theorem foldl_follow_cleanComponents (current : Location) (path : Path) :
    path.cleanComponents.foldl follow current = destination current path :=
  foldl_follow_foldl_cleanStep current path.components []

theorem foldl_follow_ups (count : Nat) (current : Location) :
    (List.replicate count Component.up).foldl follow current =
      current.take (current.length - count) := by
  induction count generalizing current with
  | zero => simp
  | succ count ih =>
    rw [List.replicate_succ, List.foldl_cons, ih]
    simp only [follow, List.dropLast_eq_take, List.length_take, List.take_take]
    congr 1
    omega

theorem foldl_follow_names (names : List String) (place : Location) :
    (names.map Component.name).foldl follow place = place ++ names := by
  induction names generalizing place with
  | nil => simp
  | cons name rest ih =>
    rw [List.map_cons, List.foldl_cons, ih]
    simp [follow]

/-- There is a plain name that is none of some names. -/
theorem exists_plainName_not_mem (names : List String) : ∃ name, PlainName name ∧ name ∉ names := by
  let count := 3 + (names.map String.toList).flatten.length
  have hlength : (String.ofList (List.replicate count 'a')).toList.length = count := by simp
  refine ⟨String.ofList (List.replicate count 'a'), ?_, fun hmem => ?_⟩
  · refine plainName_of_length (by omega) fun hslash => ?_
    rw [String.toList_ofList] at hslash
    exact absurd (List.eq_of_mem_replicate hslash) (by decide)
  · have hin := List.mem_map_of_mem (f := String.toList) hmem
    have hle := (List.sublist_flatten_of_mem hin).length_le
    omega

/-- Steps up and names that lead to the same place from everywhere are the same: with fewer steps up
    than the other, a path keeps a name of a deep directory that the other cannot bring back. -/
theorem ups_le_of_destination {fewer more : Nat} {names others : List String}
    (h : ∀ current : Location, (∀ name ∈ current, PlainName name) →
      current.take (current.length - fewer) ++ names =
        current.take (current.length - more) ++ others) : more ≤ fewer := by
  by_contra hless
  obtain ⟨fresh, hfresh, hnew⟩ := exists_plainName_not_mem others
  have hsame := h (List.replicate more fresh) fun name hname =>
    List.eq_of_mem_replicate hname ▸ hfresh
  have hmem : fresh ∈ List.take (more - fewer) (List.replicate more fresh) ++ names := by
    refine List.mem_append_left _ ?_
    rw [List.take_replicate]
    exact List.mem_replicate.mpr ⟨by omega, rfl⟩
  rw [List.length_replicate, Nat.sub_self, List.take_zero, List.nil_append] at hsame
  rw [hsame] at hmem
  exact hnew hmem

/-- **Paths that lead to the same places have one clean form.** -/
theorem cleanComponents_eq_of_destination {x y : Path} (hroot : x.isAbsolute = y.isAbsolute)
    (h : ∀ current : Location, (∀ name ∈ current, PlainName name) →
      destination current x = destination current y) :
    x.cleanComponents = y.cleanComponents := by
  obtain ⟨count, names, -, hx⟩ := (isKept_cleanComponents x).exists_names
  obtain ⟨number, others, -, hy⟩ := (isKept_cleanComponents y).exists_names
  rw [List.reverse_reverse] at hx hy
  cases habsolute : y.isAbsolute with
  | true =>
    rw [hroot, habsolute, if_pos rfl] at hx
    rw [habsolute, if_pos rfl] at hy
    have hsame := h [] (by simp)
    rw [← foldl_follow_cleanComponents, ← foldl_follow_cleanComponents, hx, hy] at hsame
    simp only [List.foldl_append, foldl_follow_names] at hsame
    rw [hx, hy, List.append_cancel_left hsame]
  | false =>
    rw [hroot, habsolute, if_neg Bool.false_ne_true] at hx
    rw [habsolute, if_neg Bool.false_ne_true] at hy
    have hsame : ∀ current : Location, (∀ name ∈ current, PlainName name) →
        current.take (current.length - count) ++ names =
          current.take (current.length - number) ++ others := by
      intro current hcurrent
      have hplace := h current hcurrent
      rw [← foldl_follow_cleanComponents, ← foldl_follow_cleanComponents, hx, hy] at hplace
      simpa only [List.foldl_append, foldl_follow_ups, foldl_follow_names] using hplace
    have hcount : count = number :=
      Nat.le_antisymm (ups_le_of_destination fun current hc => (hsame current hc).symm)
        (ups_le_of_destination hsame)
    subst hcount
    have hnames := hsame [] (by simp)
    rw [List.take_nil, List.nil_append, List.nil_append] at hnames
    rw [hx, hy, hnames]

/-! ## 5. The normal form -/

/-- A path in normal form: `.`, or what is written for the root and names, or for steps up and
    names. -/
def Normal (path : Path) : Prop :=
  path = ⟨"."⟩ ∨ ∃ (front : List Component) (names : List String),
    (if path.isAbsolute then front = [.root] else ∀ component ∈ front, component = .up) ∧
      (∀ name ∈ names, PlainName name) ∧ front ++ names.map .name ≠ [] ∧
      path = ofComponents (front ++ names.map .name) ∧
      path.components = front ++ names.map .name

/-- **A clean path is in normal form.** -/
theorem normal_clean (path : Path) : Normal path.clean := by
  by_cases hne : path.cleanComponents = []
  · exact Or.inl (clean_eq_here hne).1
  · obtain ⟨count, names, hnames, hform⟩ := (isKept_cleanComponents path).exists_names
    obtain ⟨hclean, habsolute, hcomponents⟩ := clean_eq_ofComponents hne
    rw [List.reverse_reverse] at hform
    refine Or.inr ⟨_, names, ?_, hnames, hform ▸ hne, hform ▸ hclean, hform ▸ hcomponents⟩
    rw [habsolute]
    split
    · rfl
    · exact fun component hmem => List.eq_of_mem_replicate hmem

theorem text_clean_ne_empty (path : Path) : path.clean.text ≠ "" := by
  by_cases hne : path.cleanComponents = []
  · rw [(clean_eq_here hne).1]
    decide
  · refine text_ne_empty ?_
    rwa [(clean_eq_ofComponents hne).2.2]

/-- **Cleaning finds a normal form that may stand for a path.** It is its own clean form, it may
    stand in front of another path, it starts at the root exactly if the path does, and it is in
    normal form. Two paths that both start at the root, or both do not, have one clean form exactly
    if they lead to the same place from every directory. -/
theorem clean_normalForm (x y : Path) :
    x.clean.clean = x.clean ∧ (x.join y).clean = (x.clean.join y).clean ∧
      x.clean.isAbsolute = x.isAbsolute ∧ x.clean.text ≠ "" ∧ Normal x.clean ∧
      (x.isAbsolute = y.isAbsolute → (x.clean = y.clean ↔
        ∀ current : Location, (∀ name ∈ current, PlainName name) →
          destination current x = destination current y)) := by
  refine ⟨clean_eq_of_cleanComponents (cleanComponents_clean x), clean_join x y,
    isAbsolute_clean x, text_clean_ne_empty x, normal_clean x, fun hroot => ⟨?_, ?_⟩⟩
  · intro hclean current _
    rw [← foldl_follow_cleanComponents, clean_eq_iff.mp hclean, foldl_follow_cleanComponents]
  · intro h
    exact clean_eq_of_cleanComponents (cleanComponents_eq_of_destination hroot h)

/-- A path that climbs behind a name, and one that climbs at once: their clean forms are equal, so
    they lead to the same place from everywhere. -/
theorem clean_normalForm_climbing :
    let x : Path := ⟨"a/../../b/."⟩
    let y : Path := ⟨"../b"⟩
    x.isAbsolute = y.isAbsolute ∧ x.clean.clean = x.clean ∧
      (x.join y).clean = (x.clean.join y).clean ∧ Normal x.clean ∧ x.clean = y.clean ∧
      ∀ current : Location, (∀ name ∈ current, PlainName name) →
        destination current x = destination current y := by
  intro x y
  obtain ⟨htwice, hjoin, -, -, hnormal, hplaces⟩ := clean_normalForm x y
  have hroot : x.isAbsolute = y.isAbsolute := by decide +kernel
  have hclean : x.clean = y.clean := by decide +kernel
  exact ⟨hroot, htwice, hjoin, hnormal, hclean, (hplaces hroot).mp hclean⟩

end TestScout.Path

import Mathlib.Data.List.Basic
import TestScout.FileTree.Listing
import TestScout.ProjectRoot
import TestScout.Proofs.FileTree.Walk

/-!
# Trees that differ in the contents of files

Where paths lead, what a directory lists and which project it belongs to depend on the names, the
kinds and the order of the entries only. So two trees that hold the same things under the same
names, files apart from their contents, cannot be told apart by them; and writing to a file that is
there gives such a tree. Main statements:

* `Alike`: the trees differ in the contents of files at most;
* `Alike.resolve`, `Alike.denoteSame`, `Alike.listFiles`, `Alike.findRoot`: what does not read
  contents is the same in both;
* `write_of_isFile`: writing to a file changes what is read through the paths that denote it, and
  nothing else.
-/

namespace TestScout.FileTree

/-! ## 1. Alike trees -/

/-- Two trees have the same at a location, files apart from their contents. -/
inductive SameKind : Option Entry → Option Entry → Prop where
  | absent : SameKind none none
  | file (x y : ByteArray) : SameKind (some (.file x)) (some (.file y))
  | directory : SameKind (some .directory) (some .directory)
  | link (target : Path) : SameKind (some (.link target)) (some (.link target))
  | shared (number : Nat) (x y : ByteArray) :
      SameKind (some (.shared number x)) (some (.shared number y))

/-- An entry as far as a listing tells it before it asks for its name: where a link leads counts
    only if its name is no text. -/
def bare : Slot × Entry → Slot × Entry
  | (.nameless directory shown, .link target) => (.nameless directory shown, .link target)
  | (slot, _) => (slot, .directory)

theorem metBelow?_bare (location : Location) (entry : Slot × Entry) :
    metBelow? location (bare entry) = metBelow? location entry := by
  obtain ⟨slot, entry⟩ := entry
  cases slot with
  | named place => rfl
  | nameless directory shown => cases entry <;> rfl

theorem fst_bare (entry : Slot × Entry) : (bare entry).1 = entry.1 := by
  obtain ⟨slot, entry⟩ := entry
  cases slot with
  | named place => rfl
  | nameless directory shown => cases entry <;> rfl

/-- The trees hold the same things under the same names and in the same order, files apart from
    their contents. -/
structure Alike (tree other : FileTree) : Prop where
  current : other.current = tree.current
  bares : other.entries.map bare = tree.entries.map bare
  kinds : ∀ location, SameKind (tree.entry? location) (other.entry? location)

theorem sameKind_refl (entry : Option Entry) : SameKind entry entry := by
  cases entry with
  | none => exact .absent
  | some entry =>
    cases entry with
    | file content => exact .file content content
    | directory => exact .directory
    | link target => exact .link target
    | shared number content => exact .shared number content content

theorem sameKind_trans {x y z : Option Entry} (h : SameKind x y) (h' : SameKind y z) :
    SameKind x z := by
  cases h with
  | absent => exact h'
  | directory => exact h'
  | link target => exact h'
  | file x y => cases h' with | file _ z => exact .file x z
  | shared number x y => cases h' with | shared _ _ z => exact .shared number x z

theorem sameKind_symm {x y : Option Entry} (h : SameKind x y) : SameKind y x := by
  cases h with
  | absent => exact .absent
  | file x y => exact .file y x
  | directory => exact .directory
  | link target => exact .link target
  | shared number x y => exact .shared number y x

theorem alike_refl (tree : FileTree) : tree.Alike tree where
  current := rfl
  bares := rfl
  kinds _ := sameKind_refl _

theorem Alike.trans {x y z : FileTree} (h : x.Alike y) (h' : y.Alike z) : x.Alike z where
  current := h'.current.trans h.current
  bares := h'.bares.trans h.bares
  kinds location := sameKind_trans (h.kinds location) (h'.kinds location)

theorem Alike.symm {tree other : FileTree} (h : tree.Alike other) : other.Alike tree where
  current := h.current.symm
  bares := h.bares.symm
  kinds location := sameKind_symm (h.kinds location)

/-! ## 2. What does not read contents -/

section Alike

variable {tree other : FileTree}

theorem Alike.walkWith (h : tree.Alike other)
    (follow : Location → List Step → Except FileError Spot) (location : Location)
    (steps : List Step) :
    other.walkWith follow location steps = tree.walkWith follow location steps := by
  induction steps generalizing location with
  | nil => rfl
  | cons step rest ih =>
    have hkind := h.kinds location
    cases step with
    | stay =>
      rw [FileTree.walkWith, FileTree.walkWith, ih]
      generalize tree.entry? location = here at hkind ⊢
      generalize other.entry? location = here' at hkind ⊢
      cases hkind <;> rfl
    | up =>
      rw [FileTree.walkWith, FileTree.walkWith, ih]
      generalize tree.entry? location = here at hkind ⊢
      generalize other.entry? location = here' at hkind ⊢
      cases hkind <;> rfl
    | into name =>
      rw [FileTree.walkWith, FileTree.walkWith, ih]
      have hbelow := h.kinds (location ++ [name])
      generalize tree.entry? (location ++ [name]) = below at hbelow ⊢
      generalize other.entry? (location ++ [name]) = below' at hbelow ⊢
      generalize tree.entry? location = here at hkind ⊢
      generalize other.entry? location = here' at hkind ⊢
      cases hkind <;> cases hbelow <;> rfl

theorem Alike.walk (h : tree.Alike other) (links : Nat) : other.walk links = tree.walk links := by
  induction links with
  | zero =>
    funext location steps
    exact h.walkWith _ location steps
  | succ links ih =>
    funext location steps
    rw [FileTree.walk, FileTree.walk, ih]
    exact h.walkWith _ location steps

theorem Alike.locate (h : tree.Alike other) (path : Path) :
    other.locate path = tree.locate path := by
  unfold FileTree.locate
  rw [h.current, h.walk]

/-- **Paths lead to the same locations.** -/
theorem Alike.resolve (h : tree.Alike other) (path : Path) :
    other.resolve path = tree.resolve path := by
  unfold FileTree.resolve
  rw [h.locate]

theorem Alike.isDirectory (h : tree.Alike other) (path : Path) :
    other.isDirectory path = tree.isDirectory path := by
  unfold FileTree.isDirectory FileTree.stat
  rw [h.resolve]
  cases tree.resolve path with
  | error e => rfl
  | ok location =>
    dsimp only
    have hkind := h.kinds location
    generalize tree.entry? location = here at hkind ⊢
    generalize other.entry? location = here' at hkind ⊢
    cases hkind <;> rfl

theorem Alike.isFile (h : tree.Alike other) (path : Path) :
    other.isFile path = tree.isFile path := by
  unfold FileTree.isFile FileTree.stat
  rw [h.resolve]
  cases tree.resolve path with
  | error e => rfl
  | ok location =>
    dsimp only
    have hkind := h.kinds location
    generalize tree.entry? location = here at hkind ⊢
    generalize other.entry? location = here' at hkind ⊢
    cases hkind <;> rfl

theorem Alike.identity (h : tree.Alike other) (location : Location) :
    other.identity location = tree.identity location := by
  unfold FileTree.identity
  have hkind := h.kinds location
  generalize tree.entry? location = here at hkind ⊢
  generalize other.entry? location = here' at hkind ⊢
  cases hkind <;> rfl

/-- **Paths denote the same things.** -/
theorem Alike.denoteSame (h : tree.Alike other) (x y : Path) :
    other.denoteSame x y = tree.denoteSame x y := by
  unfold FileTree.denoteSame
  rw [h.resolve, h.resolve]
  cases tree.resolve x <;> cases tree.resolve y <;> simp only [h.identity]

theorem Alike.canonical (h : tree.Alike other) (path : Path) :
    other.canonical path = tree.canonical path := by
  unfold FileTree.canonical
  rw [h.resolve]

/-- What is asked of the bare entries only is the same. -/
theorem Alike.filterMap {α : Type} (h : tree.Alike other) {f : Slot × Entry → Option α}
    (hbare : ∀ entry, f (bare entry) = f entry) :
    other.entries.filterMap f = tree.entries.filterMap f := by
  have hall (entries : List (Slot × Entry)) :
      entries.filterMap f = (entries.map bare).filterMap f := by
    rw [List.filterMap_map]
    exact List.filterMap_congr fun entry _ => (hbare entry).symm
  rw [hall other.entries, h.bares, ← hall]

theorem Alike.locations (h : tree.Alike other) : other.locations = tree.locations :=
  h.filterMap fun entry => congrArg Slot.location? (fst_bare entry)

theorem Alike.metBelow (h : tree.Alike other) (location : Location) :
    other.metBelow location = tree.metBelow location :=
  h.filterMap (metBelow?_bare location)

theorem Alike.follow (h : tree.Alike other) (directory : Location) (target : Path) :
    other.follow directory target = tree.follow directory target := by
  unfold FileTree.follow
  rw [h.walk]

theorem Alike.leadsToFile (h : tree.Alike other) (dir : Path) (location : Location) (path : Path)
    (led : Except FileError Location) :
    other.leadsToFile dir location path led = tree.leadsToFile dir location path led := by
  cases led with
  | error cause => rfl
  | ok place =>
    unfold FileTree.leadsToFile
    dsimp only
    have hplace := h.kinds place
    generalize tree.entry? place = there at hplace ⊢
    generalize other.entry? place = there' at hplace ⊢
    cases hplace <;> rfl

theorem Alike.isFileBelow (h : tree.Alike other) (dir : Path) (location : Location)
    (name : String) :
    other.isFileBelow dir location name = tree.isFileBelow dir location name := by
  unfold FileTree.isFileBelow
  rw [h.resolve, h.leadsToFile]
  have hkind := h.kinds (location ++ [name])
  generalize tree.entry? (location ++ [name]) = below at hkind ⊢
  generalize other.entry? (location ++ [name]) = below' at hkind ⊢
  cases hkind <;> rfl

theorem Alike.taken (h : tree.Alike other) (dir : Path) (location : Location) (met : Met) :
    other.taken dir location met = tree.taken dir location met := by
  cases met with
  | named name => rw [FileTree.taken, FileTree.taken, h.isFileBelow]
  | nameless shown target =>
    cases target with
    | none => rfl
    | some target => rw [FileTree.taken, FileTree.taken, h.follow, h.leadsToFile]

theorem Alike.filesAmong (h : tree.Alike other) (dir : Path) (location : Location)
    (met : List Met) :
    other.filesAmong dir location met = tree.filesAmong dir location met := by
  induction met with
  | nil => rfl
  | cons first rest ih => rw [FileTree.filesAmong, FileTree.filesAmong, h.taken, ih]

/-- **Directories list the same names**, or fail alike. -/
theorem Alike.listFiles (h : tree.Alike other) (dir : Path) (extension : Option String) :
    other.listFiles dir extension = tree.listFiles dir extension := by
  unfold FileTree.listFiles
  rw [h.resolve]
  split
  · rfl
  · cases tree.resolve dir with
    | error cause => rfl
    | ok location =>
      simp only [h.metBelow, h.filesAmong]
      have hkind := h.kinds location
      generalize tree.entry? location = here at hkind ⊢
      generalize other.entry? location = here' at hkind ⊢
      cases hkind <;> rfl

/-- **Directories belong to the same projects.** -/
theorem Alike.findRoot (h : tree.Alike other) (env : BuildEnv) (dir : Path) :
    ProjectRoot.find other env dir = ProjectRoot.find tree env dir := by
  have hcurrent : other.currentPath = tree.currentPath := congrArg pathOf h.current
  have hcanonical : other.canonical = tree.canonical := funext h.canonical
  unfold ProjectRoot.find ProjectRoot.moduleRoot ProjectRoot.sourceRoot
  simp only [hcurrent, hcanonical, h.isFile]

theorem WellNamed.of_alike (h : tree.WellNamed) (halike : tree.Alike other) :
    other.WellNamed := by
  unfold WellNamed
  rw [halike.locations]
  exact h

end Alike

/-! ## 3. Entries of a changed tree -/

theorem lookup_replaced (entries : List (Slot × Entry)) (slot place : Slot)
    (entry : Entry) :
    (entries.map fun old => if old.1 = slot then (slot, entry) else old).lookup place =
      if place = slot then (entries.lookup slot).map fun _ => entry
      else entries.lookup place := by
  induction entries with
  | nil => split <;> rfl
  | cons old rest ih =>
    obtain ⟨name, there⟩ := old
    rw [List.map_cons]
    by_cases hname : name = slot
    · subst hname
      by_cases hplace : place = name
      · subst hplace
        simp
      · simpa [List.lookup_cons, hplace, beq_eq_false_iff_ne.mpr hplace] using ih
    · by_cases hplace : place = slot
      · subst hplace
        simpa [List.lookup_cons, hname, beq_eq_false_iff_ne.mpr (Ne.symm hname)] using ih
      · by_cases hhere : place = name
        · subst hhere
          simp [hname]
        · simpa [List.lookup_cons, hname, hplace, beq_eq_false_iff_ne.mpr hhere] using ih

theorem isSome_lookup (entries : List (Slot × Entry)) (slot : Slot) :
    (entries.lookup slot).isSome = entries.any (·.1 = slot) := by
  induction entries with
  | nil => rfl
  | cons old rest ih =>
    obtain ⟨name, there⟩ := old
    by_cases hname : name = slot
    · subst hname
      simp
    · simp [List.lookup_cons, hname, beq_eq_false_iff_ne.mpr (Ne.symm hname), ih]

/-- **What was put at a location stands there, and no other location is touched.** -/
theorem entry_put {tree : FileTree} {location : Location} {entry : Entry} (hne : location ≠ [])
    (place : Location) :
    entry? (tree.put location entry) place =
      if place = location then some entry else tree.entry? place := by
  have hsome := isSome_lookup tree.entries (.named location)
  unfold put entry?
  by_cases hplace : place = []
  · simp [hplace, Ne.symm hne]
  · rw [if_neg hplace, if_neg hplace]
    split
    · rename_i hany
      rw [hany] at hsome
      obtain ⟨old, hold⟩ := Option.isSome_iff_exists.mp hsome
      rw [lookup_replaced, hold]
      simp only [Slot.named.injEq]
      rfl
    · rename_i hany
      rw [Bool.not_eq_true] at hany
      rw [hany] at hsome
      have hnone : tree.entries.lookup (.named location) = none := by simpa using hsome
      rw [List.lookup_append]
      by_cases heq : place = location
      · subst heq
        simp [hnone]
      · have hslot : Slot.named place ≠ .named location := by simpa using heq
        have hother : [(Slot.named location, entry)].lookup (.named place) = none := by
          simp [List.lookup_cons, beq_eq_false_iff_ne.mpr hslot]
        rw [if_neg heq, hother, Option.or_none]

/-- **A file is refilled under all its names.** -/
theorem entry_refill (tree : FileTree) (number : Nat) (content : ByteArray) (place : Location) :
    entry? (tree.refill number content) place =
      (tree.entry? place).map (Entry.refilled number content) := by
  have hlookup : ∀ entries : List (Slot × Entry),
      (entries.map fun old => (old.1, old.2.refilled number content)).lookup (.named place) =
        (entries.lookup (.named place)).map (Entry.refilled number content) := by
    intro entries
    induction entries with
    | nil => rfl
    | cons old rest ih =>
      rw [List.map_cons, List.lookup_cons, List.lookup_cons, ih]
      cases Slot.named place == old.1 <;> rfl
  unfold refill entry?
  by_cases hplace : place = []
  · simp [hplace, Entry.refilled]
  · rw [if_neg hplace, if_neg hplace, hlookup]

theorem any_slot_iff {tree : FileTree} {location : Location} :
    tree.entries.any (·.1 = .named location) = true ↔ location ∈ tree.locations := by
  rw [List.any_eq_true, mem_locations_iff]
  constructor
  · intro h
    obtain ⟨⟨slot, entry⟩, hentry, hslot⟩ := h
    obtain rfl : slot = .named location := of_decide_eq_true hslot
    exact ⟨entry, hentry⟩
  · intro h
    obtain ⟨entry, hentry⟩ := h
    exact ⟨_, hentry, decide_eq_true rfl⟩

/-- Where the entries stand in a tree with one more, or with one in place of another. -/
theorem locations_put (tree : FileTree) (location : Location) (entry : Entry) :
    (tree.put location entry).locations =
      if location ∈ tree.locations then tree.locations else tree.locations ++ [location] := by
  unfold put
  by_cases hthere : location ∈ tree.locations
  · rw [if_pos (any_slot_iff.mpr hthere), if_pos hthere]
    unfold locations
    rw [List.filterMap_map]
    refine List.filterMap_congr fun old _ => ?_
    by_cases hold : old.1 = .named location <;> simp [hold]
  · rw [if_neg (mt any_slot_iff.mp hthere), if_neg hthere]
    unfold locations
    rw [List.filterMap_append]
    rfl

theorem alike_put {tree : FileTree} {location : Location} {old : ByteArray} (content : ByteArray)
    (hne : location ≠ []) (h : tree.entry? location = some (.file old)) :
    tree.Alike (tree.put location (.file content)) := by
  constructor
  case current =>
    unfold put
    split <;> rfl
  case bares =>
    unfold put
    rw [if_pos (any_slot_iff.mpr (mem_locations hne h)), List.map_map]
    refine List.map_congr_left fun one _ => ?_
    by_cases hone : one.1 = .named location
    · obtain ⟨slot, entry⟩ := one
      obtain rfl : slot = .named location := hone
      simp [bare]
    · simp [hone]
  case kinds =>
    intro place
    rw [entry_put hne]
    by_cases heq : place = location
    · rw [if_pos heq, heq, h]
      exact .file old content
    · rw [if_neg heq]
      exact sameKind_refl _

theorem alike_refill (tree : FileTree) (number : Nat) (content : ByteArray) :
    tree.Alike (tree.refill number content) := by
  constructor
  case current => rfl
  case bares =>
    unfold refill
    rw [List.map_map]
    refine List.map_congr_left fun one _ => ?_
    obtain ⟨slot, entry⟩ := one
    cases slot with
    | named place => rfl
    | nameless directory shown =>
      cases entry with
      | shared other old => by_cases heq : other = number <;> simp [bare, Entry.refilled, heq]
      | file old => rfl
      | directory => rfl
      | link target => rfl
  case kinds =>
    intro place
    rw [entry_refill]
    cases tree.entry? place with
    | none => exact .absent
    | some entry =>
      cases entry with
      | file old => exact .file old old
      | directory => exact .directory
      | link target => exact .link target
      | shared other old =>
        by_cases heq : other = number
        · simpa [Entry.refilled, heq] using SameKind.shared number old content
        · simpa [Entry.refilled, heq] using SameKind.shared other old old

/-! ## 4. Writing to a file -/

theorem identity_eq_place_iff {tree : FileTree} {location place : Location} {content : ByteArray}
    (h : tree.entry? location = some (.file content)) :
    tree.identity place = tree.identity location ↔ place = location := by
  have hlocation : tree.identity location = .place location := by
    unfold identity
    rw [h]
  constructor
  · intro heq
    rw [hlocation] at heq
    unfold identity at heq
    split at heq
    · cases heq
    · exact Identity.place.inj heq
  · exact fun heq => congrArg tree.identity heq

theorem identity_eq_number_iff {tree : FileTree} {place : Location} {number : Nat} :
    tree.identity place = .number number ↔
      ∃ content, tree.entry? place = some (.shared number content) := by
  unfold identity
  split
  · rename_i other content hentry
    simp [hentry]
  · rename_i hother
    constructor
    · intro heq
      cases heq
    · rintro ⟨content, hentry⟩
      exact absurd hentry (hother number content)

/-- Where a written tree shows a new content for one thing and everything else unchanged, so do the
    paths. -/
theorem stat_of_opened {tree written : FileTree} {key : Path} {location : Location}
    {content : ByteArray} (halike : tree.Alike written) (hkey : tree.resolve key = .ok location)
    (hopened : ∀ place, (written.entry? place).map Entry.opened =
      if tree.identity place = tree.identity location then some (.file content)
      else (tree.entry? place).map Entry.opened) (path : Path) :
    written.stat path =
      if tree.denoteSame path key then .ok (.file content) else tree.stat path := by
  unfold stat denoteSame
  rw [halike.resolve, hkey]
  cases tree.resolve path with
  | error e => rfl
  | ok place =>
    have hplace := hopened place
    simp only [decide_eq_true_eq]
    split at hplace
    · rename_i hsame
      rw [if_pos hsame]
      obtain ⟨entry, hentry, hcontent⟩ := Option.map_eq_some_iff.mp hplace
      simp only [hentry, hcontent]
    · rename_i hother
      rw [if_neg hother]
      cases hold : tree.entry? place with
      | none =>
        rw [hold] at hplace
        rw [Option.map_eq_none_iff.mp hplace]
      | some old =>
        rw [hold] at hplace
        obtain ⟨entry, hentry, hcontent⟩ := Option.map_eq_some_iff.mp hplace
        simp only [hentry, hcontent]

/-- **Writing to a file changes what is read through the paths that denote it**, and nothing
    else. -/
theorem write_of_isFile {tree : FileTree} {key : Path} (h : tree.isFile key = true)
    (content : ByteArray) :
    ∃ written, tree.write key content = .ok written ∧ tree.Alike written ∧
      ∀ path, written.stat path =
        if tree.denoteSame path key then .ok (.file content) else tree.stat path := by
  obtain ⟨location, entry, old, hresolve, hentry, hfile⟩ := exists_resolve_of_isFile h
  have hne : location ≠ [] := by
    rintro rfl
    obtain rfl := Option.some.inj hentry
    cases hfile
  unfold write
  rw [locate_of_resolve hresolve]
  simp only [hentry]
  cases entry with
  | directory => cases hfile
  | link target => cases hfile
  | file old =>
    have halike := alike_put content hne hentry
    refine ⟨_, rfl, halike, stat_of_opened halike hresolve fun place => ?_⟩
    simp only [entry_put hne, identity_eq_place_iff hentry]
    split <;> rfl
  | shared number old =>
    have halike := alike_refill tree number content
    refine ⟨_, rfl, halike, stat_of_opened halike hresolve fun place => ?_⟩
    have hlocation : tree.identity location = .number number :=
      identity_eq_number_iff.mpr ⟨old, hentry⟩
    rw [entry_refill, hlocation]
    split
    · rename_i hsame
      obtain ⟨there, hthere⟩ := identity_eq_number_iff.mp hsame
      simp [hthere, Entry.refilled, Entry.opened]
    · rename_i hother
      cases hplace : tree.entry? place with
      | none => rfl
      | some there =>
        cases there with
        | file there => rfl
        | directory => rfl
        | link target => rfl
        | shared other there =>
          have hne : other ≠ number := by
            rintro rfl
            exact hother (identity_eq_number_iff.mpr ⟨there, hplace⟩)
          simp [Entry.refilled, hne]

end TestScout.FileTree

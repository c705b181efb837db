import TestScout.Proofs.FileTree.Regular

/-!
# A tree with one more file

A file that comes to stand under a name that its directory did not hold is noticed in one way only:
by a walk that asked the directory for this name. Such a walk led nowhere before, so whatever led
somewhere leads there still. Main statements:

* `Vacant`, `withFile`: a name that a directory does not hold, and the tree with a file there;
* `Noticed`, `noticed_walk`: what becomes of a walk;
* `KeepsClear`, `keepsClear_of_resolve`, `keepsClear_child`: paths that do not notice the file;
* `denoteSame_withFile`, `stat_withFile`: what they denote is the same;
* `listFiles_withFile`, `listFiles_withFile_error`: the new name stands between the other ones.
-/

namespace TestScout.FileTree

/-- A name that a directory does not hold. -/
structure Vacant (tree : FileTree) (directory : Location) (name : String) : Prop where
  isDirectory : tree.entry? directory = some .directory
  isFree : tree.entry? (directory ++ [name]) = none

instance (tree : FileTree) (directory : Location) (name : String) :
    Decidable (tree.Vacant directory name) :=
  decidable_of_iff (tree.entry? directory = some .directory ∧
    tree.entry? (directory ++ [name]) = none)
    ⟨fun ⟨hdir, hfree⟩ => ⟨hdir, hfree⟩, fun h => ⟨h.isDirectory, h.isFree⟩⟩

/-- The tree with a file in a directory, which a listing meets behind the first `k` entries. -/
def withFile (tree : FileTree) (k : Nat) (directory : Location) (name : String)
    (content : ByteArray) : FileTree :=
  { tree with entries := tree.entries.take k ++
      (.named (directory ++ [name]), .file content) :: tree.entries.drop k }

variable {tree : FileTree} {directory : Location} {name : String} {k : Nat} {content : ByteArray}

/-! ## 1. Entries -/

theorem entry?_withFile (h : tree.Vacant directory name) (place : Location) :
    entry? (tree.withFile k directory name content) place =
      if place = directory ++ [name] then some (.file content) else tree.entry? place := by
  have hfree : tree.entries.lookup (.named (directory ++ [name])) = none := by
    have hfree := h.isFree
    unfold entry? at hfree
    rwa [if_neg (by simp)] at hfree
  unfold entry? withFile
  by_cases hroot : place = []
  · simp [hroot]
  · rw [if_neg hroot, if_neg hroot]
    conv => rhs; rw [← List.take_append_drop k tree.entries]
    rw [← List.take_append_drop k tree.entries, List.lookup_append, Option.or_eq_none_iff] at hfree
    rw [List.lookup_append, List.lookup_append, List.lookup_cons]
    by_cases hplace : place = directory ++ [name]
    · simp [hplace, hfree.1]
    · have hslot : Slot.named place ≠ .named (directory ++ [name]) := by simpa using hplace
      rw [if_neg hplace, beq_eq_false_iff_ne.mpr hslot]

@[simp] theorem current_withFile :
    (tree.withFile k directory name content).current = tree.current := rfl

/-- What stood somewhere stands there still. -/
theorem entry?_withFile_of_some (h : tree.Vacant directory name) (k : Nat) (content : ByteArray)
    {place : Location} {entry : Entry} (hentry : tree.entry? place = some entry) :
    entry? (tree.withFile k directory name content) place = some entry := by
  rw [entry?_withFile h, if_neg, hentry]
  rintro rfl
  rw [h.isFree] at hentry
  cases hentry

/-- Nothing is told apart that was not: the place of the file was that of nothing else. -/
theorem identity_withFile (h : tree.Vacant directory name) (place : Location) :
    (tree.withFile k directory name content).identity place = tree.identity place := by
  unfold identity
  rw [entry?_withFile h]
  by_cases hplace : place = directory ++ [name]
  · rw [if_pos hplace, hplace, h.isFree]
  · rw [if_neg hplace]

/-- Nothing but the place itself is the same as a free place. -/
theorem identity_eq_place (h : tree.Vacant directory name) {place : Location}
    (hsame : tree.identity place = tree.identity (directory ++ [name])) :
    place = directory ++ [name] := by
  have hfree : tree.identity (directory ++ [name]) = .place (directory ++ [name]) := by
    unfold identity
    rw [h.isFree]
  rw [hfree] at hsame
  unfold identity at hsame
  split at hsame
  · cases hsame
  · exact Identity.place.inj hsame

/-! ## 2. Walks -/

/-- What becomes of the outcome of a walk: a walk that missed the name finds the file, one that was
    to go on from there is stopped by it, and any other comes out as before. -/
inductive Noticed (directory : Location) (name : String) :
    Except FileError Spot → Except FileError Spot → Prop where
  | same (outcome : Except FileError Spot) : Noticed directory name outcome outcome
  | found : Noticed directory name (.ok (.absent directory name))
      (.ok (.present (directory ++ [name])))
  | stopped : Noticed directory name (.error .notFound) (.error .notDirectory)

/-- A walk that asks for the new name. -/
theorem noticed_ask (h : tree.Vacant directory name)
    (follow follow' : Location → List Step → Except FileError Spot) (rest : List Step) :
    Noticed directory name (tree.walkWith follow directory (.into name :: rest))
      ((tree.withFile k directory name content).walkWith follow' directory
        (.into name :: rest)) := by
  rw [walkWith, walkWith, h.isDirectory, entry?_withFile_of_some h k content h.isDirectory,
    entry?_withFile h, if_pos rfl, h.isFree]
  dsimp only
  split
  · exact .same _
  · cases rest with
    | nil =>
      rw [if_pos rfl, walkWith]
      exact .found
    | cons more others =>
      have hfile : entry? (tree.withFile k directory name content) (directory ++ [name]) ≠
          some .directory := by simp [entry?_withFile h]
      rw [if_neg (List.cons_ne_nil _ _), walkWith_of_not_directory hfile]
      exact .stopped

/-- One walk, if the walks behind links come out so. -/
theorem noticed_walkWith (h : tree.Vacant directory name)
    {follow follow' : Location → List Step → Except FileError Spot}
    (hfollow : ∀ place steps, Noticed directory name (follow place steps) (follow' place steps))
    (place : Location) (steps : List Step) :
    Noticed directory name (tree.walkWith follow place steps)
      ((tree.withFile k directory name content).walkWith follow' place steps) := by
  induction steps generalizing place with
  | nil => exact .same _
  | cons step rest ih =>
    by_cases hplace : tree.entry? place = some .directory
    · have hplace' := entry?_withFile_of_some h k content hplace
      cases step with
      | stay =>
        rw [walkWith, walkWith, hplace, hplace']
        exact ih place
      | up =>
        rw [walkWith, walkWith, hplace, hplace']
        exact ih place.dropLast
      | into next =>
        by_cases hnext : place ++ [next] = directory ++ [name]
        · obtain ⟨rfl, hname⟩ := List.append_inj' hnext rfl
          obtain rfl := List.singleton_inj.mp hname
          exact noticed_ask h _ _ rest
        · rw [walkWith, walkWith, hplace, hplace', entry?_withFile h, if_neg hnext]
          dsimp only
          split
          · exact .same _
          · cases tree.entry? (place ++ [next]) with
            | none => exact .same _
            | some entry =>
              cases entry with
              | file old => exact ih _
              | directory => exact ih _
              | shared number old => exact ih _
              | link target => exact hfollow _ _
    · have hplace' : entry? (tree.withFile k directory name content) place ≠ some .directory := by
        rw [entry?_withFile h]
        split
        · simp
        · exact hplace
      rw [walkWith_of_not_directory hplace, walkWith_of_not_directory hplace']
      exact .same _

theorem noticed_walk (h : tree.Vacant directory name) (k : Nat) (content : ByteArray)
    (links : Nat) (place : Location) (steps : List Step) :
    Noticed directory name (tree.walk links place steps)
      ((tree.withFile k directory name content).walk links place steps) := by
  induction links generalizing place steps with
  | zero => exact noticed_walkWith h (fun _ _ => .same _) place steps
  | succ links ih => exact noticed_walkWith h ih place steps

theorem noticed_locate (h : tree.Vacant directory name) (k : Nat) (content : ByteArray)
    (path : Path) :
    Noticed directory name (tree.locate path)
      ((tree.withFile k directory name content).locate path) := by
  unfold locate
  rw [current_withFile]
  split
  · exact .same _
  · split
    · exact .same _
    · split
      · exact .same _
      · exact noticed_walk h k content _ _ _

/-! ## 3. Paths that do not notice the file -/

/-- The path leads, or fails to lead, to the same, whatever file stands under the name. -/
def KeepsClear (tree : FileTree) (directory : Location) (name : String) (path : Path) : Prop :=
  ∀ k content, (tree.withFile k directory name content).locate path = tree.locate path

/-- Only a path that leads nowhere can notice the file. -/
theorem keepsClear_of_locate (h : tree.Vacant directory name) {path : Path}
    (habsent : tree.locate path ≠ .ok (.absent directory name))
    (hnothing : tree.locate path ≠ .error .notFound) : tree.KeepsClear directory name path := by
  intro k content
  have hnoticed := noticed_locate h k content path
  generalize (tree.withFile k directory name content).locate path = outcome at hnoticed
  generalize tree.locate path = before at hnoticed habsent hnothing
  cases hnoticed with
  | same outcome => rfl
  | found => exact absurd rfl habsent
  | stopped => exact absurd rfl hnothing

/-- **A path that denotes something keeps clear.** -/
theorem keepsClear_of_resolve (h : tree.Vacant directory name) {path : Path} {place : Location}
    (hpath : tree.resolve path = .ok place) : tree.KeepsClear directory name path := by
  have hlocate := locate_of_resolve hpath
  refine keepsClear_of_locate h ?_ ?_ <;> simp [hlocate]

theorem KeepsClear.resolve {path : Path} (h : tree.KeepsClear directory name path)
    (k : Nat) (content : ByteArray) :
    (tree.withFile k directory name content).resolve path = tree.resolve path := by
  unfold FileTree.resolve
  rw [h k content]

theorem resolve_withFile (h : tree.Vacant directory name) (k : Nat) (content : ByteArray)
    {path : Path} {place : Location} (hpath : tree.resolve path = .ok place) :
    (tree.withFile k directory name content).resolve path = .ok place := by
  rw [(keepsClear_of_resolve h hpath).resolve, hpath]

/-- A path that does not lead to the place of the file denotes what it denoted, or still nothing. -/
theorem resolve_withFile_of_ne (h : tree.Vacant directory name) (k : Nat) (content : ByteArray)
    {path : Path} (habsent : tree.locate path ≠ .ok (.absent directory name)) :
    (tree.withFile k directory name content).resolve path = tree.resolve path ∨
      tree.resolve path = .error .notFound ∧
        (tree.withFile k directory name content).resolve path = .error .notDirectory := by
  have hnoticed := noticed_locate h k content path
  unfold FileTree.resolve
  generalize (tree.withFile k directory name content).locate path = outcome at hnoticed
  generalize tree.locate path = before at hnoticed habsent
  cases hnoticed with
  | same outcome => exact Or.inl rfl
  | found => exact absurd rfl habsent
  | stopped => exact Or.inr ⟨rfl, rfl⟩

/-! ## 4. Paths of the other names -/

/-- A walk by one name to something that is no link. -/
theorem walk_into {links : Nat} {other : String} {entry : Entry}
    (hdir : tree.entry? directory = some .directory)
    (hentry : tree.entry? (directory ++ [other]) = some entry)
    (hlink : ∀ target, entry ≠ .link target) :
    tree.walk links directory [.into other] =
      if nameLimit < other.utf8ByteSize then .error .nameTooLong
      else .ok (.present (directory ++ [other])) := by
  have hwith (follow : Location → List Step → Except FileError Spot) :
      tree.walkWith follow directory [.into other] =
        if nameLimit < other.utf8ByteSize then .error .nameTooLong
        else .ok (.present (directory ++ [other])) := by
    rw [walkWith, hdir, hentry]
    cases entry with
    | file old => rfl
    | directory => rfl
    | shared number old => rfl
    | link target => exact absurd rfl (hlink target)
  cases links with
  | zero => exact hwith _
  | succ links => exact hwith _

/-- A walk that stays ends where it starts. -/
theorem eq_of_walk_stay {links : Nat} {place last : Location}
    (h : tree.walk links place [.stay] = .ok (.present last)) : place = last := by
  have hwith : ∃ follow, tree.walkWith follow place [.stay] = .ok (.present last) := by
    cases links <;> exact ⟨_, h⟩
  obtain ⟨follow, h⟩ := hwith
  have hdir := entry?_of_walkWith h
  rw [walkWith, hdir, walkWith] at h
  exact Spot.present.inj (Except.ok.inj h)

/-- The walk to a name in a directory goes through the directory. -/
theorem walk_stepsOf_child {dir : Path} {other : String} {links : Nat} {start : Location}
    (hdir : dir.text ≠ "") (hother : PlainName other)
    (h : tree.walk links start (stepsOf dir) = .ok (.present directory)) :
    ∃ fewer, tree.walk links start (stepsOf (dir.child other)) =
      tree.walk fewer directory [.into other] := by
  obtain ⟨-, front, hchild, hpieces⟩ := Path.pieces_child hdir hother
  have hsteps : stepsOf (dir.child other) = front.map stepOf ++ [.into other] := by
    unfold stepsOf
    rw [hchild, List.map_append, List.map_singleton, stepOf_of_plain hother]
  have hfront : tree.walk links start (front.map stepOf) = .ok (.present directory) := by
    unfold stepsOf at h
    rcases hpieces with hsame | hslash
    · rwa [hsame] at h
    · rw [hslash, List.map_append, List.map_singleton] at h
      obtain ⟨place, hplace⟩ := exists_walk_of_append (List.cons_ne_nil _ _) h
      obtain ⟨fewer, -, hstay⟩ := walk_append [stepOf []] hplace
      rw [hstay] at h
      rwa [eq_of_walk_stay h] at hplace
  obtain ⟨fewer, -, hwalk⟩ := walk_append [.into other] hfront
  exact ⟨fewer, by rw [hsteps, hwalk]⟩

/-- **The path of a name in a directory keeps clear**, if something stands there that is no link. -/
theorem keepsClear_child (h : tree.Vacant directory name) {dir : Path} {other : String}
    {entry : Entry} (hdir : tree.resolve dir = .ok directory) (hother : PlainName other)
    (hentry : tree.entry? (directory ++ [other]) = some entry)
    (hlink : ∀ target, entry ≠ .link target) :
    tree.KeepsClear directory name (dir.child other) := by
  obtain ⟨hempty, hwalk⟩ := walk_of_locate (locate_of_resolve hdir)
  obtain ⟨fewer, hchild⟩ := walk_stepsOf_child hempty hother hwalk
  rw [walk_into h.isDirectory hentry hlink, ← (Path.pieces_child hempty hother).1] at hchild
  have hlocate : tree.locate (dir.child other) = .ok (.present (directory ++ [other])) ∨
      tree.locate (dir.child other) = .error .nameTooLong ∨
        tree.locate (dir.child other) = .error .endsInside := by
    unfold locate
    rw [if_neg (Path.child_ne_empty hempty hother), hchild]
    split
    · exact Or.inr (Or.inr rfl)
    · split
      · exact Or.inr (Or.inl rfl)
      · split
        · exact Or.inr (Or.inl rfl)
        · exact Or.inl rfl
  rcases hlocate with hplace | hlong | hends
  · exact keepsClear_of_locate h (by simp [hplace]) (by simp [hplace])
  · exact keepsClear_of_locate h (by simp [hlong]) (by simp [hlong])
  · exact keepsClear_of_locate h (by simp [hends]) (by simp [hends])

/-! ## 5. What paths denote -/

section Denoted

variable (htree : tree.WellFormed) (h : tree.Vacant directory name) (k : Nat) (content : ByteArray)

include htree h

/-- **What a path denotes is the same**, if the path keeps clear. -/
theorem stat_withFile {path : Path} (hpath : tree.KeepsClear directory name path) :
    (tree.withFile k directory name content).stat path = tree.stat path := by
  unfold stat
  rw [hpath.resolve]
  cases hresolve : tree.resolve path with
  | error cause => rfl
  | ok place =>
    obtain ⟨entry, hentry⟩ := htree.entry?_of_resolve hresolve
    simp only [hentry, entry?_withFile_of_some h k content hentry]

/-- **A path that keeps clear denotes the same as other paths**, whatever these are: the new file is
    nothing that such a path denotes. -/
theorem denoteSame_withFile {path : Path} (hpath : tree.KeepsClear directory name path)
    (other : Path) :
    (tree.withFile k directory name content).denoteSame path other =
      tree.denoteSame path other := by
  have hnoticed := noticed_locate h k content other
  unfold denoteSame
  rw [hpath.resolve]
  cases hresolve : tree.resolve path with
  | error cause => rfl
  | ok place =>
    obtain ⟨entry, hentry⟩ := htree.entry?_of_resolve hresolve
    have hdistinct : tree.identity place ≠ tree.identity (directory ++ [name]) := by
      intro hsame
      have hplace := identity_eq_place h hsame
      rw [hplace, h.isFree] at hentry
      cases hentry
    unfold FileTree.resolve
    simp only [identity_withFile h]
    generalize (tree.withFile k directory name content).locate other = outcome at hnoticed
    generalize tree.locate other = before at hnoticed
    cases hnoticed with
    | same outcome => rfl
    | found => simp [hdistinct]
    | stopped => rfl

end Denoted

/-! ## 6. Listings -/

/-- Something of a name stands where it is met. -/
theorem exists_entry_of_mem_metBelow {location : Location} {other : String}
    (hother : .named other ∈ tree.metBelow location) :
    ∃ entry, tree.entry? (location ++ [other]) = some entry := by
  have hsome := isSome_lookup tree.entries (.named (location ++ [other]))
  rw [any_slot_iff.mpr (mem_locations_of_mem_metBelow hother)] at hsome
  unfold entry?
  rw [if_neg (by simp)]
  exact Option.isSome_iff_exists.mp hsome

/-- **The new name is met between the others**, wherever its place among the entries is. -/
theorem metBelow_withFile (tree : FileTree) (k : Nat) (directory : Location) (name : String)
    (content : ByteArray) :
    ∃ before after, tree.metBelow directory = before ++ after ∧
      (tree.withFile k directory name content).metBelow directory =
        before ++ .named name :: after := by
  refine ⟨(tree.entries.take k).filterMap (metBelow? directory),
    (tree.entries.drop k).filterMap (metBelow? directory), ?_, ?_⟩
  · rw [← List.filterMap_append, List.take_append_drop]
    rfl
  · have hnew : metBelow? directory (.named (directory ++ [name]), .file content) =
        some (.named name) := metBelow?_eq_named_iff.mpr rfl
    unfold metBelow withFile
    rw [List.filterMap_append, List.filterMap_cons_some hnew]

theorem filesAmong_append (tree : FileTree) (dir : Path) (location : Location)
    (before after : List Met) :
    tree.filesAmong dir location (before ++ after) =
      match tree.filesAmong dir location before with
      | .error e => .error e
      | .ok first =>
        match tree.filesAmong dir location after with
        | .error e => .error e
        | .ok second => .ok (first ++ second) := by
  induction before with
  | nil =>
    rw [List.nil_append, filesAmong]
    cases tree.filesAmong dir location after <;> rfl
  | cons met rest ih =>
    rw [List.cons_append, filesAmong, filesAmong, ih]
    cases tree.taken dir location met with
    | error e => rfl
    | ok name? =>
      cases tree.filesAmong dir location rest with
      | error e => rfl
      | ok first =>
        cases tree.filesAmong dir location after with
        | error e => rfl
        | ok second => simp

/-- What ends a listing among several things that it meets. -/
def stumble? (tree : FileTree) (dir : Path) (location : Location) (all : List Met) : Option Met :=
  all.find? fun met => !(tree.taken dir location met).isOk

/-- Nothing ends a listing that succeeds. -/
theorem stumble?_eq_none {dir : Path} {location : Location} {all : List Met} {found : List String}
    (h : tree.filesAmong dir location all = .ok found) :
    tree.stumble? dir location all = none := by
  induction all generalizing found with
  | nil => rfl
  | cons first rest ih =>
    obtain ⟨name?, others, htaken, hrest, -⟩ := filesAmong_cons_eq_ok h
    rw [stumble?, List.find?_cons_of_neg (by simp [htaken, Except.isOk, Except.toBool])]
    exact ih hrest

/-- What is met keeps clear of a name if where it leads does. -/
def MetKeepsClear (tree : FileTree) (directory : Location) (name : String) (dir : Path) :
    Met → Prop
  | .named other => tree.KeepsClear directory name (dir.child other)
  | .nameless _ none => True
  | .nameless _ (some target) => ∀ k content,
    (tree.withFile k directory name content).follow directory target =
      tree.follow directory target

section Listed

variable (h : tree.Vacant directory name) {dir : Path}

include h

/-- A walk that leads somewhere leads there still. -/
theorem follow_withFile (k : Nat) (content : ByteArray) {target : Path} {place : Location}
    (hfollow : tree.follow directory target = .ok place) :
    (tree.withFile k directory name content).follow directory target = .ok place := by
  have hnoticed := noticed_walk h k content (linkLimit - 1)
    (if target.isAbsolute then [] else directory) (stepsOf target)
  unfold follow at hfollow ⊢
  generalize tree.walk _ _ _ = before at hnoticed hfollow
  generalize (tree.withFile k directory name content).walk _ _ _ = outcome at hnoticed ⊢
  cases hnoticed with
  | same outcome => exact hfollow
  | found => cases hfollow
  | stopped => cases hfollow

/-- Whether a link leads to a file is the same, if where it leads is. -/
theorem leadsToFile_withFile (k : Nat) (content : ByteArray) (path : Path)
    {led : Except FileError Location}
    (hled : ∀ place, led = .ok place → ∃ entry, tree.entry? place = some entry) :
    (tree.withFile k directory name content).leadsToFile dir directory path led =
      tree.leadsToFile dir directory path led := by
  cases led with
  | error cause => rfl
  | ok place =>
    obtain ⟨entry, hentry⟩ := hled place rfl
    unfold leadsToFile
    simp only [hentry, entry?_withFile_of_some h k content hentry]

/-- Whether another entry is a file is the same, if a link that leads nowhere keeps clear. -/
theorem isFileBelow_withFile (htree : tree.WellFormed) (k : Nat) (content : ByteArray)
    {other : String} (hother : other ≠ name)
    (hclear : ∀ target cause, tree.entry? (directory ++ [other]) = some (.link target) →
      tree.resolve (dir.child other) = .error cause →
      tree.KeepsClear directory name (dir.child other)) :
    (tree.withFile k directory name content).isFileBelow dir directory other =
      tree.isFileBelow dir directory other := by
  have hplace : directory ++ [other] ≠ directory ++ [name] := by simpa using hother
  unfold isFileBelow
  rw [entry?_withFile h, if_neg hplace]
  cases hentry : tree.entry? (directory ++ [other]) with
  | none => rfl
  | some entry =>
    cases entry with
    | file old => rfl
    | directory => rfl
    | shared number old => rfl
    | link target =>
      have hresolve : (tree.withFile k directory name content).resolve (dir.child other) =
          tree.resolve (dir.child other) := by
        cases hled : tree.resolve (dir.child other) with
        | ok place => exact resolve_withFile h k content hled
        | error cause => exact ((hclear target cause hentry hled).resolve k content).trans hled
      dsimp only
      rw [hresolve]
      exact leadsToFile_withFile h k content _ fun place => htree.entry?_of_resolve

/-- What is taken of another thing is the same, if what cannot be followed keeps clear. -/
theorem taken_withFile (htree : tree.WellFormed) (k : Nat) (content : ByteArray) {met : Met}
    (hnew : met ≠ .named name)
    (hclear : ∀ e, tree.taken dir directory met = .error e →
      tree.MetKeepsClear directory name dir met) :
    (tree.withFile k directory name content).taken dir directory met =
      tree.taken dir directory met := by
  cases met with
  | named other =>
    have hfile : (tree.withFile k directory name content).isFileBelow dir directory other =
        tree.isFileBelow dir directory other := by
      refine isFileBelow_withFile h htree k content (fun heq => hnew (heq ▸ rfl))
        fun target cause hlink hled => hclear (.access (dir.child other) cause) ?_
      simp only [taken, isFileBelow, hlink, hled, leadsToFile, Except.map]
    rw [taken, taken, hfile]
  | nameless shown target =>
    cases target with
    | none => rfl
    | some target =>
      have hfollow : (tree.withFile k directory name content).follow directory target =
          tree.follow directory target := by
        cases hplace : tree.follow directory target with
        | ok place => exact follow_withFile h k content hplace
        | error cause =>
          have hfailed : tree.taken dir directory (.nameless shown (some target)) =
              .error (.access (dir.child shown) cause) := by
            simp only [taken, hplace, leadsToFile, Except.map]
          exact (hclear _ hfailed k content).trans hplace
      rw [taken, taken, hfollow, leadsToFile_withFile h k content]
      exact fun place => htree.entry?_of_follow h.isDirectory

/-- So are the files among several other things, if the first of them that cannot be followed keeps
    clear. -/
theorem filesAmong_withFile_of_not_mem (htree : tree.WellFormed) (k : Nat) (content : ByteArray)
    {all : List Met} (hnew : .named name ∉ all)
    (hclear : ∀ met, tree.stumble? dir directory all = some met →
      tree.MetKeepsClear directory name dir met) :
    (tree.withFile k directory name content).filesAmong dir directory all =
      tree.filesAmong dir directory all := by
  induction all with
  | nil => rfl
  | cons first rest ih =>
    rw [List.mem_cons, not_or] at hnew
    have hfirst : (tree.withFile k directory name content).taken dir directory first =
        tree.taken dir directory first :=
      taken_withFile h htree k content (Ne.symm hnew.1) fun e hfailed =>
        hclear first (List.find?_cons_of_pos (by simp [hfailed, Except.isOk, Except.toBool]))
    rw [filesAmong, filesAmong, hfirst]
    cases htaken : tree.taken dir directory first with
    | error e => rfl
    | ok name? =>
      rw [ih hnew.2 fun met hmet => hclear met ?_]
      unfold stumble? at hmet ⊢
      rw [List.find?_cons_of_neg (by simp [htaken, Except.isOk, Except.toBool])]
      exact hmet

/-- **The listing has the new name between the others**, or fails as it did. -/
theorem filesAmong_withFile (htree : tree.WellFormed) (k : Nat) (content : ByteArray)
    (hclear : ∀ met, tree.stumble? dir directory (tree.metBelow directory) = some met →
      tree.MetKeepsClear directory name dir met) :
    (∃ e, tree.filesAmong dir directory (tree.metBelow directory) = .error e ∧
      (tree.withFile k directory name content).filesAmong dir directory
        ((tree.withFile k directory name content).metBelow directory) = .error e) ∨
    ∃ first second,
      tree.filesAmong dir directory (tree.metBelow directory) = .ok (first ++ second) ∧
      (tree.withFile k directory name content).filesAmong dir directory
        ((tree.withFile k directory name content).metBelow directory) =
          .ok (first ++ name :: second) := by
  obtain ⟨before, after, hbelow, hbelow'⟩ := metBelow_withFile tree k directory name content
  have hnew : .named name ∉ before ++ after := by
    intro hmem
    obtain ⟨entry, hentry⟩ := exists_entry_of_mem_metBelow (hbelow ▸ hmem)
    rw [h.isFree] at hentry
    cases hentry
  rw [List.mem_append, not_or] at hnew
  have hthere : (tree.withFile k directory name content).taken dir directory (.named name) =
      .ok (some name) := by
    simp only [taken, isFileBelow, entry?_withFile h, if_pos, Except.map]
  unfold stumble? at hclear
  rw [hbelow, List.find?_append] at hclear
  have hbefore : (tree.withFile k directory name content).filesAmong dir directory before =
      tree.filesAmong dir directory before := by
    refine filesAmong_withFile_of_not_mem h htree k content hnew.1 fun met hmet => hclear met ?_
    rw [show before.find? _ = some met from hmet]
    rfl
  rw [hbelow, hbelow', filesAmong_append, filesAmong_append, hbefore, filesAmong, hthere]
  cases hfirst : tree.filesAmong dir directory before with
  | error e => exact Or.inl ⟨e, rfl, rfl⟩
  | ok first =>
    -- nothing before the new name ends the listing
    have hnone := stumble?_eq_none hfirst
    unfold stumble? at hnone
    rw [hnone, Option.none_or] at hclear
    rw [filesAmong_withFile_of_not_mem h htree k content hnew.2 hclear]
    cases hsecond : tree.filesAmong dir directory after with
    | error e => exact Or.inl ⟨e, rfl, rfl⟩
    | ok second => exact Or.inr ⟨first, second, rfl, rfl⟩

variable (hdir : tree.resolve dir = .ok directory)

include hdir

theorem listFiles_withFile_eq_map (hinput : dir.isStandardInput = false) (extension : String) :
    (tree.withFile k directory name content).listFiles dir (some extension) =
      ((tree.withFile k directory name content).filesAmong dir directory
          ((tree.withFile k directory name content).metBelow directory)).map fun found =>
        (found.filter (hasExtension (some extension))).mergeSort :=
  listFiles_eq_map extension hinput (resolve_withFile h k content hdir)
    (entry?_withFile_of_some h k content h.isDirectory)

/-- **A directory that can be listed lists the new name as well**, at one place among the others. -/
theorem listFiles_withFile (htree : tree.WellFormed) {extension : String} {names : List String}
    (hinput : dir.isStandardInput = false) (hname : Path.extension name = some extension)
    (hlist : tree.listFiles dir (some extension) = .ok names) (k : Nat) (content : ByteArray) :
    ∃ before after, names = before ++ after ∧
      (tree.withFile k directory name content).listFiles dir (some extension) =
        .ok (before ++ name :: after) := by
  rw [listFiles_eq_map extension hinput hdir h.isDirectory] at hlist
  rw [listFiles_withFile_eq_map h hdir hinput]
  have hclear : ∀ met, tree.stumble? dir directory (tree.metBelow directory) = some met →
      tree.MetKeepsClear directory name dir met := by
    intro met hmet
    cases hall : tree.filesAmong dir directory (tree.metBelow directory) with
    | error e => simp [hall, Except.map] at hlist
    | ok all =>
      rw [stumble?_eq_none hall] at hmet
      cases hmet
  rcases filesAmong_withFile h htree k content hclear with
    ⟨e, hall, -⟩ | ⟨first, second, hall, hlater⟩
  · simp [hall, Except.map] at hlist
  · rw [hall] at hlist
    obtain rfl := Except.ok.inj hlist
    have hwanted : hasExtension (some extension) name = true := hasExtension_iff.mpr hname
    obtain ⟨before, after, hbefore, hafter⟩ := exists_mergeSort_insert
      (first.filter (hasExtension (some extension)))
      (second.filter (hasExtension (some extension))) name
    refine ⟨before, after, ?_, ?_⟩
    · show ((first ++ second).filter _).mergeSort = _
      rw [List.filter_append]
      exact hbefore
    · rw [hlater]
      show Except.ok ((first ++ name :: second).filter _).mergeSort = _
      rw [List.filter_append, List.filter_cons_of_pos hwanted, hafter]

/-- **A listing fails as it did**, if the entry that cannot be followed keeps clear. -/
theorem listFiles_withFile_error (htree : tree.WellFormed) {extension : String} {cause : ListError}
    (hinput : dir.isStandardInput = false)
    (hlist : tree.listFiles dir (some extension) = .error cause)
    (hclear : ∀ met, tree.stumble? dir directory (tree.metBelow directory) = some met →
      tree.MetKeepsClear directory name dir met) (k : Nat) (content : ByteArray) :
    (tree.withFile k directory name content).listFiles dir (some extension) = .error cause := by
  rw [listFiles_eq_map extension hinput hdir h.isDirectory] at hlist
  rw [listFiles_withFile_eq_map h hdir hinput]
  rcases filesAmong_withFile h htree k content hclear with
    ⟨e, hall, hlater⟩ | ⟨first, second, hall, -⟩
  · rw [hall] at hlist
    rw [hlater]
    exact hlist
  · simp [hall, Except.map] at hlist

/-- **Every name that is listed keeps clear.** -/
theorem keepsClear_of_listFiles (hnames : tree.WellNamed) {extension : String}
    {names : List String} (hlist : tree.listFiles dir (some extension) = .ok names)
    {other : String} (hother : other ∈ names) :
    tree.KeepsClear directory name (dir.child other) := by
  have hplain := hnames.plain_of_listFiles hlist other hother
  have hinput : dir.isStandardInput = false := by
    refine Bool.eq_false_iff.mpr fun hinput => ?_
    unfold listFiles at hlist
    rw [if_pos hinput] at hlist
    obtain rfl := Except.ok.inj hlist
    exact absurd hother List.not_mem_nil
  obtain ⟨location, found, hresolve, hfound, rfl⟩ :=
    listFiles_eq_ok hinput (isDirectory_iff.mpr ⟨directory, hdir, h.isDirectory⟩) hlist
  obtain rfl := Except.ok.inj (hdir.symm.trans hresolve)
  have hmem := (List.mem_filter.mp (List.mem_mergeSort.mp hother)).1
  have hmet := ((mem_filesAmong hfound).mp hmem).1
  obtain ⟨entry, hentry⟩ := exists_entry_of_mem_metBelow hmet
  by_cases hlink : ∃ target, entry = .link target
  · -- a link that leads nowhere would have ended the listing
    obtain ⟨target, rfl⟩ := hlink
    have hfile := ((mem_filesAmong hfound).mp hmem).2
    unfold isFileBelow at hfile
    rw [hentry] at hfile
    cases hplace : tree.resolve (dir.child other) with
    | error cause => simp [hplace, leadsToFile] at hfile
    | ok place => exact keepsClear_of_resolve h hplace
  · exact keepsClear_child h hdir hplain hentry fun target heq => hlink ⟨target, heq⟩

end Listed

end TestScout.FileTree

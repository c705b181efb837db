import Mathlib.Data.Finset.Card
import TestScout.Proofs.Overlay.Payload

/-!
# Overlays as stores

An overlay keeps one content for every path, whatever the spelling of the path: the content that was
inserted last. The paths stand in the order in which they were inserted first, each in its first
spelling, and this is the order in which a path that was not inserted is looked for among them. Main
statements:

* `keysOf`, `lastFor?`: the paths under which contents are kept, and the contents, told from what
  was inserted;
* `map_fst_ofList`, `ownContent?_ofList`: they are the paths and the contents of the overlay;
* `lookup_ofList`: what is found for a path that was inserted, and for another one;
* `size_ofList`: how many contents are kept;
* `keepsLast_ofList`: overlays keep what was inserted last, and those that are read from a text keep
  what its members say.
-/

namespace TestScout.Overlay

/-! ## 1. What is kept -/

/-- The paths under which contents are kept: every path that was inserted, in the spelling in which
    it was inserted first. -/
def keysOf : List (Path × String) → List Path
  | [] => []
  | entry :: rest => entry.1 :: (keysOf rest).filter fun key => !entry.1.same key

/-- The content that was inserted last for a path. -/
def lastFor? (contents : List (Path × String)) (path : Path) : Option String :=
  (contents.reverse.find? fun entry => entry.1.same path).map (·.2)

/-- A path has a last content exactly if it was inserted. -/
theorem lastFor?_isSome_iff {contents : List (Path × String)} {path : Path} :
    (lastFor? contents path).isSome = true ↔ ∃ entry ∈ contents, entry.1.same path = true := by
  unfold lastFor?
  simp [List.find?_isSome]

theorem ofList_concat (contents : List (Path × String)) (entry : Path × String) :
    ofList (contents ++ [entry]) = (ofList contents).insert entry.1 entry.2 :=
  List.foldl_append

theorem same_trans {x y z : Path} (h : x.same y = true) (h' : y.same z = true) :
    x.same z = true :=
  Path.same_iff.mpr ((Path.same_iff.mp h).trans (Path.same_iff.mp h'))

/-- **A path was inserted exactly if a content is kept under one that is the same.** -/
theorem exists_keysOf_iff {contents : List (Path × String)} {path : Path} :
    (∃ key ∈ keysOf contents, key.same path = true) ↔
      ∃ entry ∈ contents, entry.1.same path = true := by
  induction contents with
  | nil => simp [keysOf]
  | cons entry rest ih =>
    simp only [keysOf, List.mem_cons, List.mem_filter, Bool.not_eq_true', exists_eq_or_imp, ← ih]
    by_cases hsame : entry.1.same path = true
    · exact iff_of_true (Or.inl hsame) (Or.inl hsame)
    · refine or_congr_right ⟨?_, ?_⟩
      · intro h
        obtain ⟨key, ⟨hkey, -⟩, hpath⟩ := h
        exact ⟨key, hkey, hpath⟩
      · intro h
        obtain ⟨key, hkey, hpath⟩ := h
        have hdiffers : entry.1.same key = false := by
          rw [← Bool.not_eq_true]
          exact fun hentry => hsame (same_trans hentry hpath)
        exact ⟨key, ⟨hkey, hdiffers⟩, hpath⟩

/-- No two contents are kept under one path. -/
theorem pairwise_keysOf (contents : List (Path × String)) :
    (keysOf contents).Pairwise fun x y => x.same y = false := by
  induction contents with
  | nil => exact .nil
  | cons entry rest ih =>
    refine List.pairwise_cons.mpr ⟨fun key hkey => ?_, ih.filter _⟩
    simpa using (List.mem_filter.mp hkey).2

/-- A path that was inserted before adds no key, and another one adds itself at the end. -/
theorem keysOf_concat (contents : List (Path × String)) (entry : Path × String) :
    keysOf (contents ++ [entry]) =
      if contents.any (·.1.same entry.1) then keysOf contents
      else keysOf contents ++ [entry.1] := by
  induction contents with
  | nil => simp [keysOf]
  | cons first rest ih =>
    rw [List.cons_append, keysOf, ih, keysOf, List.any_cons]
    cases hfirst : first.1.same entry.1 <;> cases hrest : rest.any (·.1.same entry.1) <;>
      simp [hfirst]

/-- The paths of the entries after an insertion. -/
theorem map_fst_insertInto (path : Path) (content : String) (entries : List (Path × String)) :
    (insertInto path content entries).map (·.1) =
      if entries.any (·.1.same path) then entries.map (·.1) else entries.map (·.1) ++ [path] := by
  induction entries with
  | nil => rfl
  | cons entry rest ih =>
    rw [insertInto, List.any_cons]
    cases hentry : entry.1.same path with
    | true => simp
    | false => cases hrest : rest.any (·.1.same path) <;> simp_all

/-- **The paths of an overlay are those under which contents are kept**, in the same order. -/
theorem map_fst_ofList (contents : List (Path × String)) :
    (ofList contents).entries.map (·.1) = keysOf contents := by
  induction contents using List.reverseRecOn with
  | nil => rfl
  | append_singleton contents entry ih =>
    have hany : (ofList contents).entries.any (·.1.same entry.1) =
        contents.any (·.1.same entry.1) := by
      have hkeys := @exists_keysOf_iff contents entry.1
      rw [← ih] at hkeys
      rw [Bool.eq_iff_iff, List.any_eq_true, List.any_eq_true, ← hkeys]
      simp
    rw [ofList_concat, keysOf_concat, insert, map_fst_insertInto, ih, hany]

/-- **The content of an overlay under a path is the one inserted last for it.** -/
theorem ownContent?_ofList (contents : List (Path × String)) (path : Path) :
    (ofList contents).ownContent? path = lastFor? contents path := by
  induction contents using List.reverseRecOn with
  | nil => rfl
  | append_singleton contents entry ih =>
    rw [ofList_concat, ownContent?_insert, ih]
    unfold lastFor?
    rw [List.reverse_concat, List.find?_cons]
    cases entry.1.same path <;> rfl

/-! ## 2. What is found -/

/-- An entry of an overlay is found under its own path: no other entry has this path. -/
theorem ownContent?_of_mem {contents : List (Path × String)} {entry : Path × String}
    (h : entry ∈ (ofList contents).entries) :
    (ofList contents).ownContent? entry.1 = some entry.2 := by
  have hdistinct : (ofList contents).entries.Pairwise fun x y => x.1.same y.1 = false := by
    have hkeys := pairwise_keysOf contents
    rwa [← map_fst_ofList, List.pairwise_map] at hkeys
  obtain ⟨before, behind, hsplit⟩ := List.append_of_mem h
  rw [hsplit] at hdistinct
  have hfirst : (ofList contents).entries.find? (fun other => other.1.same entry.1) =
      some entry := by
    refine List.find?_eq_some_iff_append.mpr ⟨by simp, before, behind, hsplit, ?_⟩
    intro other hother
    rw [(List.pairwise_append.mp hdistinct).2.2 other hother entry List.mem_cons_self]
    rfl
  unfold ownContent?
  rw [hfirst]
  rfl

/-- **What is found for a path is the content inserted last for it, else the one for the first key
    that is the same file.** -/
theorem lookup_ofList (tree : FileTree) (contents : List (Path × String)) (path : Path) :
    (ofList contents).lookup tree path =
      (lastFor? contents path).or
        (((keysOf contents).find? fun key => sameFile tree path key).bind (lastFor? contents)) := by
  have halias : (ofList contents).aliasContent? tree path =
      ((keysOf contents).find? fun key => sameFile tree path key).bind (lastFor? contents) := by
    have hkey : ((keysOf contents).find? fun key => sameFile tree path key) =
        ((ofList contents).entries.find? fun entry => sameFile tree path entry.1).map (·.1) := by
      rw [← map_fst_ofList]
      exact List.find?_map
    rw [hkey]
    unfold aliasContent?
    cases hfound : (ofList contents).entries.find? fun entry => sameFile tree path entry.1 with
    | none => rfl
    | some entry =>
      have hentry := ownContent?_of_mem (List.mem_of_find?_eq_some hfound)
      rw [ownContent?_ofList] at hentry
      exact hentry.symm
  unfold lookup
  rw [ownContent?_ofList, halias]

/-- **As many contents are kept as paths were inserted**, different spellings not counted. -/
theorem size_ofList (contents : List (Path × String)) :
    (ofList contents).size = (contents.map (·.1.components)).toFinset.card := by
  have hkeys : ((keysOf contents).map Path.components).Nodup := by
    refine List.pairwise_map.mpr ((pairwise_keysOf contents).imp fun {x y} h => ?_)
    intro heq
    rw [Path.same_iff.mpr heq] at h
    cases h
  have hsame : ((keysOf contents).map Path.components).toFinset =
      (contents.map (·.1.components)).toFinset := by
    ext components
    simp only [List.mem_toFinset, List.mem_map]
    constructor
    · intro hkey
      obtain ⟨key, hkey, rfl⟩ := hkey
      obtain ⟨entry, hentry, hsame⟩ := exists_keysOf_iff.mp ⟨key, hkey, Path.same_iff.mpr rfl⟩
      exact ⟨entry, hentry, Path.same_iff.mp hsame⟩
    · intro hentry
      obtain ⟨entry, hentry, rfl⟩ := hentry
      obtain ⟨key, hkey, hsame⟩ := exists_keysOf_iff.mpr ⟨entry, hentry, Path.same_iff.mpr rfl⟩
      exact ⟨key, hkey, Path.same_iff.mp hsame⟩
  rw [← hsame, List.toFinset_card_of_nodup hkeys, List.length_map, ← map_fst_ofList,
    List.length_map]
  rfl

/-! ## 3. Stores -/

/-- The overlay keeps what was inserted last: for a path that was inserted its last content is
    found, for another one the last content of the first key that is the same file, and the contents
    are as many as the paths that were inserted, different spellings of one path not counted. -/
structure KeepsLast (tree : FileTree) (contents : List (Path × String)) (overlay : Overlay) :
    Prop where
  last : ∀ path, (∃ entry ∈ contents, entry.1.same path = true) →
    ∃ content, lastFor? contents path = some content ∧ overlay.lookup tree path = some content
  other : ∀ path, (∀ entry ∈ contents, entry.1.same path = false) →
    overlay.lookup tree path =
      ((keysOf contents).find? fun key => sameFile tree path key).bind (lastFor? contents)
  size : overlay.size = (contents.map (·.1.components)).toFinset.card

/-- **Overlays keep what was inserted last**, and a text with differently named members is read as
    the overlay of its members in their order, or as none if it has no members. -/
theorem keepsLast_ofList (tree : FileTree) (contents : List (Path × String)) :
    KeepsLast tree contents (ofList contents) ∧
      ∀ text members, Describes text members → (members.map (·.1)).Nodup →
        ofJson text = .ok (if members = [] then none
          else some (ofList (members.map fun member => (⟨member.1⟩, member.2)))) := by
  refine ⟨⟨fun path hpath => ?_, fun path hpath => ?_, size_ofList contents⟩,
    fun text members => ofJson_of_describes⟩
  · obtain ⟨content, hcontent⟩ := Option.isSome_iff_exists.mp (lastFor?_isSome_iff.mpr hpath)
    refine ⟨content, hcontent, ?_⟩
    rw [lookup_ofList, hcontent]
    rfl
  · have hnone : lastFor? contents path = none := by
      unfold lastFor?
      rw [Option.map_eq_none_iff, List.find?_eq_none]
      intro entry hentry
      simp [hpath entry (List.mem_reverse.mp hentry)]
    rw [lookup_ofList, hnone]
    rfl

/-- Two spellings of one path are one key in its first place with its last content, which is also
    found through the working directory, whether they are inserted or read. -/
theorem keepsLast_ofList_spellings :
    let tree : FileTree :=
      ⟨[(["w"], .directory), (["w", "a.go"], .file ⟨#[]⟩), (["w", "link"], .link ⟨"/w"⟩)], ["w"]⟩
    let contents : List (Path × String) :=
      [(⟨"/w/a.go"⟩, "old"), (⟨"/w/link/a.go"⟩, "linked"), (⟨"/w//a.go"⟩, "new")]
    let members := [("/w/a.go", "old"), ("/w//a.go", "new")]
    let text :=
      "\x7b\"replace\": \x7b\"/w/a.go\": \"old\", \"\\/w\\u002f/a.go\": \"new\"\x7d\x7d".toList
    KeepsLast tree contents (ofList contents) ∧ (ofList contents).size = 2 ∧
      (ofList contents).lookup tree ⟨"/w/./a.go"⟩ = some "new" ∧
      (ofList contents).lookup tree ⟨"a.go"⟩ = some "new" ∧
      Describes text members ∧ (members.map (·.1)).Nodup ∧
      ofJson text = .ok (some ⟨[(⟨"/w/a.go"⟩, "new")]⟩) := by
  intro tree contents members text
  obtain ⟨hkeeps, hread⟩ := keepsLast_ofList tree contents
  have hdescribes : Describes text members := describes_iff.mpr (by decide +kernel)
  have hnames : (members.map (·.1)).Nodup := by decide
  obtain ⟨content, hcontent, hfound⟩ := hkeeps.last ⟨"/w/./a.go"⟩
    ⟨(⟨"/w/a.go"⟩, "old"), List.mem_cons_self, by decide +kernel⟩
  refine ⟨hkeeps, hkeeps.size.trans (by decide +kernel), ?_, ?_, hdescribes, hnames, ?_⟩
  · rw [hfound, ← hcontent]
    decide +kernel
  · rw [hkeeps.other ⟨"a.go"⟩ (by decide +kernel)]
    decide +kernel
  · rw [hread text members hdescribes hnames]
    decide +kernel

end TestScout.Overlay

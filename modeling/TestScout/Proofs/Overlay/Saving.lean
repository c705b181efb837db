import Mathlib.Data.List.Find
import Mathlib.Data.List.Pairwise
import TestScout.Proofs.Discovery.SameSources
import TestScout.Proofs.GoSource.Placed

/-!
# Overlays and saved files

Working with unsaved contents is the same as saving them first. Sources are read in one way only,
through the overlay and then from the tree, so it is enough that this reads the same text on both
sides, for every path that is asked for; everything else depends on names and kinds of entries,
which saving does not change. Main statements:

* `Overlay.save`: the tree with the contents written to the files that their paths denote;
* `Overlay.Covers`: the paths of an overlay denote files of a tree, each its own, and nobody knows
  these files by another name;
* `lookup_eq_find`: what is found for a path is the content for the file that it denotes;
* `stat_saveAll`: what is read through a path after saving;
* `answers_of_save`: all answers with the overlay are those on the saved tree.
-/

namespace TestScout

/-! ## 1. Saving -/

namespace Overlay

/-- The tree with contents written to the files that their paths denote. -/
def saveAll (tree : FileTree) : List (Path × String) → Except FileError FileTree
  | [] => .ok tree
  | entry :: rest =>
    match tree.write entry.1 entry.2.toUTF8 with
    | .error cause => .error cause
    | .ok tree => saveAll tree rest

/-- The tree with all contents of an overlay saved. -/
def save (tree : FileTree) (overlay : Overlay) : Except FileError FileTree :=
  saveAll tree overlay.entries

/-- The overlay holds contents of files of the tree: its paths denote files, no two the same, and
    every path that denotes such a file has the file name that the overlay knows it by. -/
structure Covers (tree : FileTree) (overlay : Overlay) : Prop where
  clean : ∀ entry ∈ overlay.entries, entry.1.CleanAbsolute
  isFile : ∀ entry ∈ overlay.entries, tree.isFile entry.1 = true
  distinct : overlay.entries.Pairwise fun x y => tree.denoteSame x.1 y.1 = false
  fileName : ∀ entry ∈ overlay.entries, ∀ path : Path, path.CleanAbsolute →
    tree.denoteSame path entry.1 = true → path.fileName = entry.1.fileName

end Overlay

/-! ## 2. Denoting the same -/

namespace FileTree

theorem denoteSame_iff {tree : FileTree} {x y : Path} :
    tree.denoteSame x y = true ↔ ∃ a b, tree.resolve x = .ok a ∧ tree.resolve y = .ok b ∧
      tree.identity a = tree.identity b := by
  unfold denoteSame
  cases tree.resolve x <;> cases tree.resolve y <;> simp

theorem denoteSame_self {tree : FileTree} {path : Path} (h : tree.isFile path = true) :
    tree.denoteSame path path = true := by
  obtain ⟨location, -, -, hresolve, -⟩ := exists_resolve_of_isFile h
  exact denoteSame_iff.mpr ⟨location, location, hresolve, hresolve, rfl⟩

theorem denoteSame_trans {tree : FileTree} {x y z : Path} (h : tree.denoteSame x y = true)
    (h' : tree.denoteSame y z = true) : tree.denoteSame x z = true := by
  obtain ⟨a, b, hx, hy, hab⟩ := denoteSame_iff.mp h
  obtain ⟨b', c, hy', hz, hbc⟩ := denoteSame_iff.mp h'
  rw [hy] at hy'
  obtain rfl := Except.ok.inj hy'
  exact denoteSame_iff.mpr ⟨a, c, hx, hz, hab.trans hbc⟩

theorem denoteSame_symm {tree : FileTree} {x y : Path} (h : tree.denoteSame x y = true) :
    tree.denoteSame y x = true :=
  (tree.denoteSame_comm y x).trans h

end FileTree

namespace Overlay

open FileTree

/-! ## 3. Looking up -/

section Covers

variable {tree : FileTree} {overlay : Overlay}

/-- Only one entry is for the file that a path denotes. -/
theorem Covers.eq_of_denoteSame (h : Covers tree overlay) {entry other : Path × String}
    (hentry : entry ∈ overlay.entries) (hother : other ∈ overlay.entries)
    (hsame : tree.denoteSame entry.1 other.1 = true) : entry = other := by
  by_contra hne
  have hsymm : Std.Symm fun x y : Path × String => tree.denoteSame x.1 y.1 = false :=
    ⟨fun x y hxy => by rw [tree.denoteSame_comm]; exact hxy⟩
  have hnot := h.distinct.forall hentry hother hne
  rw [hsame] at hnot
  exact absurd hnot (by decide)

/-- An entry is for the same file as a clean path exactly when the path denotes the entry's file. -/
theorem Covers.sameFile_iff (h : Covers tree overlay) {entry : Path × String}
    (hentry : entry ∈ overlay.entries) {path : Path} (hpath : path.CleanAbsolute) :
    sameFile tree path entry.1 = tree.denoteSame path entry.1 := by
  have hself : path = entry.1 → tree.denoteSame path entry.1 = true := by
    rintro rfl
    exact denoteSame_self (h.isFile entry hentry)
  have hsame : path.same entry.1 = true → tree.denoteSame path entry.1 = true :=
    fun hs => hself (Path.eq_of_same hpath (h.clean entry hentry) hs)
  rw [Bool.eq_iff_iff]
  constructor
  · intro hfile
    simp only [sameFile, Bool.or_eq_true, Bool.and_eq_true] at hfile
    rcases hfile with hs | ⟨-, hs | hd⟩
    · exact hsame hs
    · rw [hpath.clean, (h.clean entry hentry).clean] at hs
      exact hsame hs
    · exact hd
  · intro hd
    have hname := h.fileName entry hentry path hpath hd
    simp [sameFile, hname, hd]

/-- **What is found for a clean path is the content for the file that it denotes.** -/
theorem Covers.lookup_eq_find (h : Covers tree overlay) {path : Path} (hpath : path.CleanAbsolute) :
    overlay.lookup tree path =
      (overlay.entries.find? fun entry => tree.denoteSame path entry.1).map (·.2) := by
  have halias : overlay.aliasContent? tree path =
      (overlay.entries.find? fun entry => tree.denoteSame path entry.1).map (·.2) := by
    unfold aliasContent?
    rw [List.find?_congr fun entry hentry => h.sameFile_iff hentry hpath]
  unfold lookup
  rw [halias]
  unfold ownContent?
  cases hown : overlay.entries.find? fun entry => entry.1.same path with
  | none => rfl
  | some entry =>
    -- the path itself is a key, and the first entry for its file can be no other one
    have hentry := List.mem_of_find?_eq_some hown
    have hsame : entry.1.same path = true := by simpa using List.find?_some hown
    have hkey : entry.1 = path := Path.eq_of_same (h.clean entry hentry) hpath hsame
    have hdenote : tree.denoteSame path entry.1 = true := by
      rw [← hkey]
      exact denoteSame_self (h.isFile entry hentry)
    cases hfirst : overlay.entries.find? fun entry => tree.denoteSame path entry.1 with
    | none =>
      have hnot := List.find?_eq_none.mp hfirst entry hentry
      exact absurd hdenote hnot
    | some first =>
      have hfirstSame : tree.denoteSame path first.1 = true := by
        simpa using List.find?_some hfirst
      have heq : entry = first :=
        h.eq_of_denoteSame hentry (List.mem_of_find?_eq_some hfirst)
          (denoteSame_trans (denoteSame_symm hdenote) hfirstSame)
      rw [heq]
      rfl

end Covers

/-! ## 4. Reading after saving -/

/-- **What is read through a path after saving** is the content for the file that it denotes, if
    there is one, and else what was there. -/
theorem stat_saveAll {tree : FileTree} {entries : List (Path × String)}
    (hfiles : ∀ entry ∈ entries, tree.isFile entry.1 = true)
    (hdistinct : entries.Pairwise fun x y => tree.denoteSame x.1 y.1 = false) :
    ∃ saved, saveAll tree entries = .ok saved ∧ tree.Alike saved ∧
      ∀ path, saved.stat path =
        match entries.find? fun entry => tree.denoteSame path entry.1 with
        | some entry => .ok (.file entry.2.toUTF8)
        | none => tree.stat path := by
  induction entries generalizing tree with
  | nil => exact ⟨tree, rfl, alike_refl tree, fun _ => rfl⟩
  | cons entry rest ih =>
    obtain ⟨written, hwrite, halike, hstat⟩ :=
      write_of_isFile (hfiles entry List.mem_cons_self) entry.2.toUTF8
    obtain ⟨hothers, hrest⟩ := List.pairwise_cons.mp hdistinct
    have hfiles' : ∀ other ∈ rest, written.isFile other.1 = true := by
      intro other hother
      rw [halike.isFile]
      exact hfiles other (List.mem_cons_of_mem _ hother)
    have hrest' : rest.Pairwise fun x y => written.denoteSame x.1 y.1 = false := by
      simpa only [halike.denoteSame] using hrest
    obtain ⟨saved, hsave, hsaved, hread⟩ := ih hfiles' hrest'
    refine ⟨saved, by simp only [saveAll, hwrite, hsave], halike.trans hsaved, fun path => ?_⟩
    simp only [halike.denoteSame] at hread
    rw [hread path]
    cases hsame : tree.denoteSame path entry.1 with
    | false =>
      simp only [List.find?_cons, hsame, hstat path, Bool.false_eq_true, if_false]
    | true =>
      have hnone : rest.find? (fun other => tree.denoteSame path other.1) = none := by
        refine List.find?_eq_none.mpr fun other hother hboth => ?_
        have hlinked := denoteSame_trans (denoteSame_symm hsame) hboth
        rw [hothers other hother] at hlinked
        exact absurd hlinked (by decide)
      simp only [List.find?_cons, hsame, hnone, hstat path, if_true]

end Overlay

/-! ## 5. Working with an overlay -/

open GoSource (Parser)

/-- **A saved overlay gives the same sources.** -/
theorem Overlay.Covers.sameSources {tree : FileTree} {overlay : Overlay} {env : BuildEnv}
    (h : Overlay.Covers tree overlay) (henv : env.overlay = none) :
    ∃ saved, overlay.save tree = .ok saved ∧ tree.Alike saved ∧
      SameSources saved tree env (env.withOverlay (some overlay)) := by
  obtain ⟨saved, hsave, halike, hstat⟩ := Overlay.stat_saveAll h.isFile h.distinct
  refine ⟨saved, hsave, halike, halike.symm, rfl, fun path hpath => ?_⟩
  have hlookup := h.lookup_eq_find hpath
  have hread := hstat path
  unfold BuildEnv.effectiveSource
  rw [henv]
  simp only [BuildEnv.withOverlay, Option.bind_some, Option.bind_none]
  cases hfound : overlay.entries.find? fun entry => tree.denoteSame path entry.1 with
  | none =>
    rw [hfound] at hlookup hread
    simp only [hlookup, Option.map_none, SourceText.read, hread]
  | some entry =>
    rw [hfound] at hlookup hread
    simp only [hlookup, Option.map_some, SourceText.read, hread, SourceText.decode_toUTF8]

/-- **Working with an overlay is working on saved files.** An overlay that holds contents of files
    of a tree can be saved, and with it every answer is the one that is given without it on the tree
    in which it is saved: the package of a directory, the tests of a directory, the environment for
    a file, its overlay apart, and the function around a position. -/
theorem answers_of_save (parser : Parser) (host : Host) {tree : FileTree} {overlay : Overlay}
    {env : BuildEnv} (hnames : tree.WellNamed) (hoverlay : Overlay.Covers tree overlay)
    (henv : env.overlay = none) :
    ∃ saved, overlay.save tree = .ok saved ∧
      (∀ dir : Path, dir.CleanAbsolute →
        Package.ofDirectory tree (env.withOverlay (some overlay)) dir =
          Package.ofDirectory saved env dir) ∧
      (∀ (base : BuildEnv) (dir : Path), dir.CleanAbsolute →
        Discovery.discover parser host tree (env.withOverlay (some overlay)) base dir =
          Discovery.discover parser host saved env base dir) ∧
      (∀ file : Path, file.CleanAbsolute →
        (env.withOverlay (some overlay)).resolveFor tree file =
          (env.resolveFor saved file).map (·.withOverlay (some overlay))) ∧
      ∀ text : String,
        (∀ query, PositionQuery.read text.toList = .ok query → query.path.CleanAbsolute) →
        lookupFunction parser tree (env.withOverlay (some overlay)) text =
          lookupFunction parser saved env text := by
  obtain ⟨saved, hsave, halike, hsources⟩ := hoverlay.sameSources henv
  have hsaved : saved.WellNamed := hnames.of_alike halike
  exact ⟨saved, hsave, fun dir hdir => hsources.ofDirectory hsaved hdir,
    fun base dir hdir => hsources.discover parser host hsaved base hdir,
    fun file hfile => hsources.resolveFor hfile,
    fun text htext => hsources.lookupFunction parser htext⟩

/-- A file with two names, in two directories, one of which a link leads to as well. -/
def sharedTree : FileTree :=
  ⟨[(["p"], .directory), (["p", "a_test.go"], .shared 7 "package old\n".toUTF8),
    (["q"], .link ⟨"/p"⟩), (["r"], .directory),
    (["r", "a_test.go"], .shared 7 "package old\n".toUTF8)], []⟩

/-- New contents for this file, by the name that it has behind the link. -/
def sharedOverlay : Overlay :=
  ⟨[(⟨"/q/a_test.go"⟩, "package new\n")]⟩

/-- The link leads to the directory and nowhere else, however many links may still be followed. -/
theorem walk_link_sharedTree {links : Nat} {location : Location}
    (h : sharedTree.walk links [] [.into "q"] = .ok (.present location)) : location = ["p"] := by
  have hroot : sharedTree.entry? [] = some .directory := rfl
  have hlink : sharedTree.entry? ["q"] = some (.link ⟨"/p"⟩) := by decide +kernel
  have hdir : sharedTree.entry? ["p"] = some .directory := by decide +kernel
  have hsteps : FileTree.stepsOf ⟨"/p"⟩ = [.stay, .into "p"] := by decide +kernel
  have habsolute : Path.isAbsolute ⟨"/p"⟩ = true := by decide +kernel
  have hshort : ∀ name ∈ ["p", "q"], ¬ FileTree.nameLimit < name.utf8ByteSize := by decide +kernel
  have hend : ∀ follow, sharedTree.walkWith follow [] [.stay, .into "p"] =
      .ok (.present ["p"]) := by
    intro follow
    rw [FileTree.walkWith, hroot]
    simp only
    rw [FileTree.walkWith, hroot]
    simp only [if_neg (hshort "p" (by simp)), List.nil_append, hdir]
    rw [FileTree.walkWith]
  have hstart : ∀ follow, sharedTree.walkWith follow [] [.into "q"] =
      follow [] [.stay, .into "p"] := by
    intro follow
    rw [FileTree.walkWith, hroot]
    simp only [if_neg (hshort "q" (by simp)), List.nil_append, hlink, habsolute, if_true, hsteps,
      List.append_nil]
  cases links with
  | zero =>
    rw [FileTree.walk, hstart] at h
    cases h
  | succ links =>
    rw [FileTree.walk, hstart] at h
    have hwalk : sharedTree.walk links [] [.stay, .into "p"] = .ok (.present ["p"]) := by
      cases links <;> exact hend _
    rw [hwalk] at h
    exact (FileTree.Spot.present.inj (Except.ok.inj h)).symm

/-- Whatever path leads to the file ends in its name: the link leads to a directory. -/
theorem fileName_sharedTree {path : Path} (hpath : path.CleanAbsolute)
    (hsame : sharedTree.denoteSame path ⟨"/q/a_test.go"⟩ = true) :
    path.fileName = some "a_test.go" := by
  have hkey : sharedTree.resolve ⟨"/q/a_test.go"⟩ = .ok ["p", "a_test.go"] := by decide +kernel
  have hidentity : sharedTree.identity ["p", "a_test.go"] = .number 7 := by decide +kernel
  have hroot : sharedTree.entry? [] = some .directory := rfl
  have hdir : sharedTree.entry? ["p"] = some .directory := by decide +kernel
  obtain ⟨location, other, hresolve, hother, hnumber⟩ := FileTree.denoteSame_iff.mp hsame
  rw [hkey] at hother
  obtain rfl := Except.ok.inj hother
  rw [hidentity] at hnumber
  obtain ⟨content, hcontent⟩ := FileTree.identity_eq_number_iff.mp hnumber
  have hne : location ≠ [] := by
    rintro rfl
    rw [hroot] at hcontent
    cases hcontent
  have hlast : location.getLast? = some "a_test.go" := by
    have hin := FileTree.mem_entries hne hcontent
    simp only [sharedTree, List.mem_cons, Prod.mk.injEq, Slot.named.injEq, reduceCtorEq, and_false,
      false_or, List.not_mem_nil, or_false] at hin
    rcases hin with ⟨rfl, -⟩ | ⟨rfl, -⟩ <;> rfl
  rw [FileTree.fileName_of_resolve hpath hresolve ?_, hlast]
  intro directory name target fewer hlink hwalk
  have hin := FileTree.mem_entries (by simp) hlink
  simp only [sharedTree, List.mem_cons, Prod.mk.injEq, Slot.named.injEq, reduceCtorEq, and_false,
    false_or, List.not_mem_nil, or_false] at hin
  have hplace : directory ++ [name] = [] ++ ["q"] := hin.1
  obtain ⟨rfl, hname⟩ := List.append_inj' hplace rfl
  obtain rfl := List.singleton_inj.mp hname
  rw [walk_link_sharedTree hwalk, hdir] at hcontent
  cases hcontent

theorem covers_sharedOverlay : Overlay.Covers sharedTree sharedOverlay where
  clean := by
    intro entry hentry
    obtain rfl := List.mem_singleton.mp hentry
    exact ⟨by decide +kernel, by decide +kernel⟩
  isFile := by
    intro entry hentry
    obtain rfl := List.mem_singleton.mp hentry
    decide +kernel
  distinct := List.pairwise_singleton _ _
  fileName := by
    intro entry hentry path hpath hsame
    obtain rfl := List.mem_singleton.mp hentry
    have hkey : Path.fileName ⟨"/q/a_test.go"⟩ = some "a_test.go" := by decide +kernel
    exact (fileName_sharedTree hpath hsame).trans hkey.symm

/-- A new text for the file is the same whether it is saved or not, under all its names. -/
theorem answers_of_save_sharedTree :
    let env := BuildEnv.ofVariables .built (fun _ => none) .standard
    let parser := Parser.ofClauses ["old", "new"]
    sharedTree.WellNamed ∧ Overlay.Covers sharedTree sharedOverlay ∧ env.overlay = none ∧
      ∃ saved, sharedOverlay.save sharedTree = .ok saved ∧
      (∀ dir : Path, dir.CleanAbsolute →
        Package.ofDirectory sharedTree (env.withOverlay (some sharedOverlay)) dir =
          Package.ofDirectory saved env dir) ∧
      (∀ (base : BuildEnv) (dir : Path), dir.CleanAbsolute →
        Discovery.discover parser .built sharedTree (env.withOverlay (some sharedOverlay)) base
          dir = Discovery.discover parser .built saved env base dir) ∧
      (∀ file : Path, file.CleanAbsolute →
        (env.withOverlay (some sharedOverlay)).resolveFor sharedTree file =
          (env.resolveFor saved file).map (·.withOverlay (some sharedOverlay))) ∧
      ∀ text : String,
        (∀ query, PositionQuery.read text.toList = .ok query → query.path.CleanAbsolute) →
        lookupFunction parser sharedTree (env.withOverlay (some sharedOverlay)) text =
          lookupFunction parser saved env text := by
  intro env parser
  have hnames : sharedTree.WellNamed := by
    unfold FileTree.WellNamed
    decide +kernel
  have henv : env.overlay = none := rfl
  exact ⟨hnames, covers_sharedOverlay, henv,
    answers_of_save parser .built hnames covers_sharedOverlay henv⟩

end TestScout

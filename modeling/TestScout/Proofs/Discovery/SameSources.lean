import TestScout.Discovery
import TestScout.FunctionLookup
import TestScout.Proofs.FileTree.Contents
import TestScout.Proofs.Package.Reading

/-!
# Who reads the same sources gives the same answers

Sources are read in one way only: the unsaved contents of the environment first, then the tree.
Everything else that a package, a report or a search for an environment depends on is names and
kinds of entries, and the parts of the environment that are not its overlay. So two alike trees with
environments that differ in their overlays give the same answers as soon as every clean path gives
the same text. Main statements:

* `SameSources`: alike trees and environments in which the same sources are read;
* `fitting_withOverlay`: the search for an environment does not look at the overlay;
* `SameSources.ofDirectory`, `SameSources.discover`, `SameSources.resolveFor`,
  `SameSources.lookupFunction`: the same package, the same tests, the same environment but for its
  overlay, and the same function.
-/

namespace TestScout

/-! ## 1. Environments that differ in their overlays -/

/-- The environment with unsaved contents. -/
def BuildEnv.withOverlay (env : BuildEnv) (overlay : Option Overlay) : BuildEnv :=
  { env with overlay := overlay }

namespace BuildEnv

theorem choose_withOverlay (env : BuildEnv) (overlay : Option Overlay) (choice : Choice) :
    (env.withOverlay overlay).choose choice = (env.choose choice).withOverlay overlay := by
  cases choice with
  | goos value => rfl
  | goarch value => rfl
  | cgo on => rfl
  | tag name on =>
    change (env.withOverlay overlay).setTag name on = (env.setTag name on).withOverlay overlay
    unfold setTag
    dsimp only
    split <;> rfl

theorem apply_withOverlay (env : BuildEnv) (overlay : Option Overlay) (combination : Combination) :
    (env.withOverlay overlay).apply combination = (env.apply combination).withOverlay overlay := by
  unfold apply
  induction combination.choices generalizing env with
  | nil => rfl
  | cons choice rest ih => rw [List.foldl_cons, List.foldl_cons, choose_withOverlay, ih]

/-- **The search for an environment leaves the overlay as it is**, and does not depend on it. -/
theorem fitting_withOverlay (env : BuildEnv) (overlay : Option Overlay) (name : String)
    (header : Header) :
    (env.withOverlay overlay).fitting name header =
      (env.fitting name header).map (·.withOverlay overlay) := by
  have hmatches : ∀ candidate : BuildEnv, (candidate.withOverlay overlay).matchesFile name header =
      candidate.matchesFile name header := fun _ => rfl
  have hcandidates : (env.withOverlay overlay).candidates name header =
      (env.candidates name header).map (·.withOverlay overlay) := by
    have hdimensions : (env.withOverlay overlay).dimensions name header =
        env.dimensions name header := rfl
    unfold candidates
    rw [hdimensions, List.map_map]
    exact List.map_congr_left fun combination _ => apply_withOverlay env overlay combination
  unfold fitting
  rw [hmatches, hcandidates, List.find?_map]
  split
  · rfl
  · congr 1

end BuildEnv

/-! ## 2. The same sources -/

/-- Two trees, each with an environment, in which the same sources are read: the trees are alike,
    the environments differ in their overlays only, and every clean path gives the same text. -/
structure SameSources (tree other : FileTree) (env variant : BuildEnv) : Prop where
  alike : tree.Alike other
  environment : variant = env.withOverlay variant.overlay
  source : ∀ path : Path, path.CleanAbsolute →
    variant.effectiveSource other path = env.effectiveSource tree path

/-! ## 3. The same answers -/

namespace SameSources

open Package
open GoSource (Parser)

variable {tree other : FileTree} {env variant : BuildEnv} (h : SameSources tree other env variant)

include h

theorem matchesFile (name : String) (header : Header) :
    variant.matchesFile name header = env.matchesFile name header := by
  rw [h.environment]
  rfl

theorem addSource (state : Reading) (fileName : String) (header : Header) :
    Reading.addSource variant state fileName header =
      Reading.addSource env state fileName header := by
  unfold Reading.addSource
  rw [h.matchesFile]

theorem readHeader {path : Path} (hpath : path.CleanAbsolute) :
    Package.readHeader other variant path = Package.readHeader tree env path := by
  unfold Package.readHeader
  rw [h.source path hpath]

/-- Reading files by plain names of a clean directory. -/
theorem readAll {state : Reading} (hdir : state.package.dir.CleanAbsolute) {names : List String}
    (hnames : ∀ name ∈ names, PlainName name) :
    Package.readAll other variant state names = Package.readAll tree env state names := by
  induction names generalizing state with
  | nil => rfl
  | cons fileName rest ih =>
    have hrest : ∀ name ∈ rest, PlainName name :=
      fun name hname => hnames name (List.mem_cons_of_mem _ hname)
    have hpath := Path.cleanAbsolute_child hdir (hnames fileName List.mem_cons_self)
    rw [Package.readAll, Package.readAll, h.readHeader hpath]
    split
    · exact ih hdir hrest
    · split
      · rfl
      · rw [h.addSource]
        split
        · rfl
        · rename_i next hnext
          refine ih ?_ hrest
          rw [(extends_of_addSource hnext).dir]
          exact hdir

/-- **The same package is found in a directory.** -/
theorem ofDirectory (hnames : tree.WellNamed) {dir : Path} (hdir : dir.CleanAbsolute) :
    Package.ofDirectory other variant dir = Package.ofDirectory tree env dir := by
  unfold Package.ofDirectory
  rw [h.alike.isDirectory, h.alike.listFiles]
  split
  · rfl
  · split
    · rfl
    · rename_i names hlist
      rw [h.readAll hdir (hnames.plain_of_listFiles hlist)]

theorem scanFile (parser : Parser) {file : Path} (hfile : file.CleanAbsolute) :
    Discovery.scanFile parser other variant file = Discovery.scanFile parser tree env file := by
  unfold Discovery.scanFile
  rw [h.source file hfile]

theorem scanFiles (parser : Parser) {files : List Path}
    (hfiles : ∀ file ∈ files, file.CleanAbsolute) :
    Discovery.scanFiles parser other variant files =
      Discovery.scanFiles parser tree env files := by
  induction files with
  | nil => rfl
  | cons file rest ih =>
    rw [Discovery.scanFiles, Discovery.scanFiles,
      h.scanFile parser (hfiles file List.mem_cons_self),
      ih fun next hnext => hfiles next (List.mem_cons_of_mem _ hnext)]

theorem reportedRoot (dir : Path) :
    Discovery.reportedRoot other variant dir = Discovery.reportedRoot tree env dir := by
  unfold Discovery.reportedRoot
  rw [h.alike.findRoot, h.environment]
  rfl

/-- **The same tests are reported for a directory.** -/
theorem discover (parser : Parser) (host : Host) (hnames : tree.WellNamed) (base : BuildEnv)
    {dir : Path} (hdir : dir.CleanAbsolute) :
    Discovery.discover parser host other variant base dir =
      Discovery.discover parser host tree env base dir := by
  unfold Discovery.discover
  rw [h.ofDirectory hnames hdir]
  split
  · rfl
  · rename_i package hpackage
    obtain ⟨-, -, names, last, hlist, hread, rfl⟩ := ofDirectory_eq_ok hpackage
    have hfiles : ∀ file ∈ last.package.testFiles.map dir.child, file.CleanAbsolute := by
      intro file hfile
      obtain ⟨name, hname, rfl⟩ := List.mem_map.mp hfile
      have hlisted : name ∈ names :=
        (mem_names_of_readAll hread hname).resolve_left List.not_mem_nil
      exact Path.cleanAbsolute_child hdir (hnames.plain_of_listFiles hlist name hlisted)
    have hdifference : EnvDifference.between host base variant = .between host base env := by
      rw [h.environment]
      rfl
    rw [h.scanFiles parser hfiles, h.reportedRoot, hdifference]

/-- **The same environment is found for a file**, its overlay apart. -/
theorem resolveFor {file : Path} (hfile : file.CleanAbsolute) :
    variant.resolveFor other file =
      (env.resolveFor tree file).map (·.withOverlay variant.overlay) := by
  have hfitting : ∀ name header, variant.fitting name header =
      (env.fitting name header).map (·.withOverlay variant.overlay) := by
    intro name header
    rw [← BuildEnv.fitting_withOverlay, ← h.environment]
  unfold BuildEnv.resolveFor
  rw [h.source file hfile]
  cases file.fileName with
  | none => rfl
  | some name =>
    dsimp only
    cases env.effectiveSource tree file with
    | error failure => rfl
    | ok source =>
      dsimp only
      cases Header.scan source.toList with
      | error cause => rfl
      | ok header =>
        dsimp only
        rw [hfitting]
        cases env.fitting name header <;> rfl

/-- **The same function is found around a position.** -/
theorem lookupFunction (parser : Parser) {text : String}
    (htext : ∀ query, PositionQuery.read text.toList = .ok query → query.path.CleanAbsolute) :
    TestScout.lookupFunction parser other variant text =
      TestScout.lookupFunction parser tree env text := by
  unfold TestScout.lookupFunction
  split
  · rfl
  · rename_i query hquery
    rw [h.source query.path (htext query hquery)]

end SameSources

end TestScout

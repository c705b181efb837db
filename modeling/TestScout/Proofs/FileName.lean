import TestScout.FileName
import TestScout.Proofs.Text.Cutting

/-!
# Platforms in the ends of file names

A file name is read from its end. What counts is its stem from the first underscore on, without one
`_test` at the end, and of this only whether it ends in a system, in an architecture or in both,
each behind an underscore. To see this a name is cut at its underscores, and the last pieces are
compared with the known names: these hold no underscore, so the pieces and the end say the same.
Main statements:

* `platformPart`, `Asks`: what counts of a name, and what its end asks for;
* `spelled_isSuffix_iff`: an end of a text between underscores is a list of last pieces;
* `target_eq_iff_asks`: a name asks for the platform in which its platform part ends;
* `platformPart_front`, `platformPart_behind`, `platformPart_test`: what makes no difference;
* `readFromSuffix`: names are read from the suffix, and from nothing else.
-/

namespace TestScout.FileName

/-! ## 1. Tags of file names -/

/-- No name stands for a system and for an architecture. -/
theorem isArch_eq_false_of_isOS {tag : String} (h : Platform.isOS tag = true) :
    Platform.isArch tag = false := by
  have hall : ∀ system ∈ Platform.knownOS, Platform.isArch system = false := by decide
  exact hall tag (Platform.isOS_iff.mp h)

/-- The tags of a target are names of platforms, none of them twice. -/
theorem tags_targetOf (parts : List String) :
    (∀ tag ∈ (targetOf parts).tags, Platform.isOS tag = true ∨ Platform.isArch tag = true) ∧
      (targetOf parts).tags.Nodup := by
  have hlast : ∀ part, (∀ tag ∈ (targetOf.lastOnly part).tags,
      Platform.isOS tag = true ∨ Platform.isArch tag = true) ∧
        (targetOf.lastOnly part).tags.Nodup := by
    intro part
    unfold targetOf.lastOnly
    split
    · rename_i h
      exact ⟨by simp [Target.tags, h], by simp [Target.tags]⟩
    · split
      · rename_i h
        exact ⟨by simp [Target.tags, h], by simp [Target.tags]⟩
      · exact ⟨by simp [Target.tags], by simp [Target.tags]⟩
  match parts with
  | [] => exact ⟨by simp [targetOf, Target.tags], by simp [targetOf, Target.tags]⟩
  | [last] => exact hlast last
  | machine :: system :: rest =>
    by_cases h : Platform.isOS system = true ∧ Platform.isArch machine = true
    · obtain ⟨hos, harch⟩ := h
      have hne : system ≠ machine := by
        rintro rfl
        rw [isArch_eq_false_of_isOS hos] at harch
        exact Bool.false_ne_true harch
      rw [targetOf, if_pos ⟨hos, harch⟩]
      exact ⟨by simp [Target.tags, hos, harch], by simp [Target.tags, hne]⟩
    · rw [targetOf, if_neg h]
      exact hlast machine

/-- A tag of a file name names a platform. -/
theorem isPlatform_of_mem_tags {name tag : String} (h : tag ∈ (target name).tags) :
    Platform.isOS tag = true ∨ Platform.isArch tag = true :=
  (tags_targetOf _).1 tag h

theorem nodup_tags_target (name : String) : (target name).tags.Nodup :=
  (tags_targetOf _).2

/-! ## 2. What counts of a name -/

/-- The text of a name in front of its first dot. -/
def stem (name : String) : List Char :=
  name.toList.takeWhile (· ≠ '.')

/-- What test files have at the end of their stems. -/
def testEnding : List Char := "_test".toList

/-- A text without one `_test` at its end. -/
def withoutTestEnding (text : List Char) : List Char :=
  if testEnding <:+ text then text.take (text.length - testEnding.length) else text

/-- The part of a name that can ask for a platform: its stem from the first underscore on, without
    one `_test` at the end. -/
def platformPart (name : String) : List Char :=
  withoutTestEnding ((stem name).dropWhile (· ≠ '_'))

/-- The text ends in a system and an architecture, each behind an underscore. -/
def EndsInBoth (text : List Char) (system machine : String) : Prop :=
  system ∈ Platform.knownOS ∧ machine ∈ Platform.knownArch ∧
    ("_" ++ system ++ "_" ++ machine).toList <:+ text

/-- The text ends in one of some names behind an underscore. -/
def EndsInOne (known : List String) (text : List Char) (name : String) : Prop :=
  name ∈ known ∧ ("_" ++ name).toList <:+ text

/-- What a text asks for by its end: a system and an architecture if it ends in both, else the
    system or the architecture that it ends in, else nothing. -/
def Asks (text : List Char) : Target → Prop
  | .both system machine => EndsInBoth text system machine
  | .os system =>
    (∀ first second, ¬ EndsInBoth text first second) ∧ EndsInOne Platform.knownOS text system
  | .arch machine =>
    (∀ first second, ¬ EndsInBoth text first second) ∧ EndsInOne Platform.knownArch text machine
  | .any =>
    (∀ first second, ¬ EndsInBoth text first second) ∧
      ∀ name, ¬ EndsInOne Platform.knownOS text name ∧ ¬ EndsInOne Platform.knownArch text name

theorem withoutTestEnding_append (text : List Char) :
    withoutTestEnding (text ++ testEnding) = text := by
  rw [withoutTestEnding, if_pos (List.suffix_append text testEnding), List.length_append,
    Nat.add_sub_cancel, List.take_left]

theorem withoutTestEnding_of_not_suffix {text : List Char} (h : ¬ testEnding <:+ text) :
    withoutTestEnding text = text :=
  if_neg h

/-! ## 3. Pieces between underscores -/

/-- Parts with an underscore in front of each. -/
def spelled (parts : List String) : List Char :=
  parts.flatMap fun part => '_' :: part.toList

theorem spelled_eq_intercalate (parts : List String) :
    spelled parts = ['_'].intercalate ([] :: parts.map String.toList) := by
  induction parts with
  | nil => rfl
  | cons part parts ih =>
    have hcons : spelled (part :: parts) = '_' :: (part.toList ++ spelled parts) := rfl
    rw [hcons, ih]
    cases parts with
    | nil => simp
    | cons next more => simp [List.intercalate_cons_cons]

/-- Between the underscores of what is spelled stand the parts. -/
theorem splitOn_spelled {parts : List String} (h : ∀ part ∈ parts, '_' ∉ part.toList) :
    (spelled parts).splitOn '_' = [] :: parts.map String.toList := by
  rw [spelled_eq_intercalate]
  refine List.splitOn_intercalate '_' ?_ (List.cons_ne_nil _ _)
  simpa using h

theorem spelled_splitOn (text : List Char) :
    spelled ((text.splitOn '_').map String.ofList) = '_' :: text := by
  have hpieces : ((text.splitOn '_').map String.ofList).map String.toList = text.splitOn '_' := by
    simp
  obtain ⟨piece, pieces, hsplit⟩ := List.exists_cons_of_ne_nil (List.splitOn_ne_nil '_' text)
  rw [spelled_eq_intercalate, hpieces, hsplit, List.intercalate_cons_cons, ← hsplit,
    List.intercalate_splitOn]
  rfl

/-- **What is spelled ends in other parts spelled exactly if they are its last ones.** -/
theorem spelled_isSuffix_iff {chosen parts : List String}
    (hchosen : ∀ part ∈ chosen, '_' ∉ part.toList) (hparts : ∀ part ∈ parts, '_' ∉ part.toList) :
    spelled chosen <:+ spelled parts ↔ chosen <:+ parts := by
  constructor
  · intro h
    obtain ⟨front, hfront⟩ := h
    cases chosen with
    | nil => exact List.nil_suffix
    | cons part rest =>
      -- Both sides are cut at the underscore in front of the first part that was chosen.
      have hrest : (part.toList ++ spelled rest).splitOn '_' =
          (part :: rest).map String.toList := by
        have hwhole := splitOn_spelled hchosen
        exact (List.cons.inj ((List.splitOn_append_cons_self [] _).symm.trans hwhole)).2
      have hpieces : front.splitOn '_' ++ (part :: rest).map String.toList =
          [] :: parts.map String.toList := by
        rw [← splitOn_spelled hparts, ← hfront, ← hrest]
        exact (List.splitOn_append_cons_self front _).symm
      obtain ⟨piece, pieces, hfirst⟩ := List.exists_cons_of_ne_nil (List.splitOn_ne_nil '_' front)
      rw [hfirst, List.cons_append] at hpieces
      have hends : (part :: rest).map String.toList <:+ parts.map String.toList :=
        ⟨pieces, (List.cons.inj hpieces).2⟩
      simpa using hends.map String.ofList
  · intro h
    obtain ⟨front, rfl⟩ := h
    unfold spelled
    rw [List.flatMap_append]
    exact List.suffix_append _ _

/-- What a list of parts is spelled as, the last part first. -/
theorem spelled_partsReversed (name : String) :
    spelled (partsReversed name).reverse = (stem name).dropWhile (· ≠ '_') := by
  unfold partsReversed stem
  dsimp only
  cases hsuffix : (name.toList.takeWhile (· ≠ '.')).dropWhile (· ≠ '_') with
  | nil => rfl
  | cons c rest =>
    have hc : c = '_' := by
      have hhead := List.head?_dropWhile_not (fun c => decide (c ≠ '_'))
        (name.toList.takeWhile (· ≠ '.'))
      rw [hsuffix] at hhead
      simpa using hhead
    rw [List.reverse_reverse, spelled_splitOn, hc]

theorem not_mem_of_mem_partsReversed {name part : String} (h : part ∈ partsReversed name) :
    '_' ∉ part.toList := by
  unfold partsReversed at h
  dsimp only at h
  split at h
  · cases h
  · obtain ⟨piece, hpiece, rfl⟩ := List.mem_map.mp (List.mem_reverse.mp h)
    rw [String.toList_ofList]
    exact not_mem_of_mem_splitOn hpiece

theorem withoutTest_isSuffix (parts : List String) : withoutTest parts <:+ parts := by
  unfold withoutTest
  split
  · exact List.suffix_cons _ _
  · exact List.suffix_refl _

/-- **The platform part of a name is made of its parts without `test` at the end.** -/
theorem spelled_withoutTest (name : String) :
    spelled (withoutTest (partsReversed name)).reverse = platformPart name := by
  unfold platformPart
  rw [← spelled_partsReversed]
  have hplain : ∀ part ∈ (partsReversed name).reverse, '_' ∉ part.toList :=
    fun part hpart => not_mem_of_mem_partsReversed (List.mem_reverse.mp hpart)
  by_cases htest : ∃ rest, partsReversed name = "test" :: rest
  · obtain ⟨rest, hrest⟩ := htest
    have happend : spelled ("test" :: rest).reverse = spelled rest.reverse ++ testEnding := by
      rw [List.reverse_cons]
      unfold spelled
      rw [List.flatMap_append]
      rfl
    rw [hrest, happend, withoutTestEnding_append]
    rfl
  · have hkept : withoutTest (partsReversed name) = partsReversed name := by
      unfold withoutTest
      split
      · rename_i rest hrest
        exact absurd ⟨rest, hrest⟩ htest
      · rfl
    rw [hkept, withoutTestEnding_of_not_suffix]
    intro hends
    have hlast : ["test"].reverse <:+ (partsReversed name).reverse :=
      (spelled_isSuffix_iff (by decide) hplain).mp hends
    obtain ⟨rest, hrest⟩ := List.reverse_suffix.mp hlast
    exact htest ⟨rest, hrest.symm⟩

/-! ## 4. What the last pieces ask for -/

theorem not_mem_of_mem_knownOS : ∀ system ∈ Platform.knownOS, '_' ∉ system.toList := by
  decide

theorem not_mem_of_mem_knownArch : ∀ machine ∈ Platform.knownArch, '_' ∉ machine.toList := by
  decide

/-- What one part asks for. -/
theorem eq_lastOnly_iff {part : String} (asked : Target) :
    asked = targetOf.lastOnly part ↔
      match asked with
      | .both _ _ => False
      | .os system => Platform.isOS system = true ∧ part = system
      | .arch machine => Platform.isArch machine = true ∧ part = machine
      | .any => Platform.isOS part = false ∧ Platform.isArch part = false := by
  have hone : Platform.isOS part = true → Platform.isArch part = false := isArch_eq_false_of_isOS
  unfold targetOf.lastOnly
  cases asked <;> grind

section Parts

variable {parts : List String} (hparts : ∀ part ∈ parts, '_' ∉ part.toList)

include hparts

theorem spelled_isSuffix_reverse_iff {chosen : List String}
    (hchosen : ∀ part ∈ chosen, '_' ∉ part.toList) :
    spelled chosen.reverse <:+ spelled parts.reverse ↔ chosen <+: parts := by
  rw [spelled_isSuffix_iff (by simpa using hchosen) (by simpa using hparts), List.reverse_suffix]

theorem endsInBoth_iff {system machine : String} :
    EndsInBoth (spelled parts.reverse) system machine ↔
      system ∈ Platform.knownOS ∧ machine ∈ Platform.knownArch ∧ [machine, system] <+: parts := by
  refine and_congr_right fun hsystem => and_congr_right fun hmachine => ?_
  have hspelled : ("_" ++ system ++ "_" ++ machine).toList = spelled [machine, system].reverse := by
    simp [spelled]
  rw [hspelled, spelled_isSuffix_reverse_iff hparts]
  simp [not_mem_of_mem_knownOS system hsystem, not_mem_of_mem_knownArch machine hmachine]

theorem endsInOne_iff {known : List String} (hknown : ∀ name ∈ known, '_' ∉ name.toList)
    {name : String} :
    EndsInOne known (spelled parts.reverse) name ↔ name ∈ known ∧ parts.head? = some name := by
  refine and_congr_right fun hname => ?_
  have hspelled : ("_" ++ name).toList = spelled [name].reverse := by simp [spelled]
  rw [hspelled, spelled_isSuffix_reverse_iff hparts (by simpa using hknown name hname),
    List.singleton_prefix_iff_head?_eq_some]

/-- A text that ends in a system and an architecture asks for both. -/
theorem asks_iff_of_endsInBoth {system machine : String}
    (hends : EndsInBoth (spelled parts.reverse) system machine) (asked : Target) :
    Asks (spelled parts.reverse) asked ↔ asked = targetOf parts := by
  obtain ⟨hsystem, hmachine, rest, hrest⟩ := (endsInBoth_iff hparts).mp hends
  have htarget : targetOf parts = .both system machine := by
    rw [← hrest]
    exact if_pos ⟨Platform.isOS_iff.mpr hsystem, Platform.isArch_iff.mpr hmachine⟩
  have hsome : ¬ ∀ first second, ¬ EndsInBoth (spelled parts.reverse) first second :=
    fun hnone => hnone system machine hends
  rw [htarget]
  cases asked with
  | both first second =>
    refine ⟨fun h => ?_, fun h => ?_⟩
    · obtain ⟨-, -, more, hmore⟩ := (endsInBoth_iff hparts).mp h
      rw [← hrest] at hmore
      simp only [List.cons_append, List.cons.injEq] at hmore
      rw [hmore.1, hmore.2.1]
    · obtain ⟨rfl, rfl⟩ := Target.both.inj h
      exact hends
  | os first => simp only [Asks, hsome, false_and, reduceCtorEq]
  | arch second => simp only [Asks, hsome, false_and, reduceCtorEq]
  | any => simp only [Asks, hsome, false_and, reduceCtorEq]

/-- Another one asks for what its last part names. -/
theorem asks_iff_of_not_endsInBoth
    (hnone : ∀ system machine, ¬ EndsInBoth (spelled parts.reverse) system machine)
    (asked : Target) : Asks (spelled parts.reverse) asked ↔ asked = targetOf parts := by
  have hsystem : ∀ name, EndsInOne Platform.knownOS (spelled parts.reverse) name ↔
      Platform.isOS name = true ∧ parts.head? = some name := by
    intro name
    rw [endsInOne_iff hparts not_mem_of_mem_knownOS, Platform.isOS_iff]
  have hmachine : ∀ name, EndsInOne Platform.knownArch (spelled parts.reverse) name ↔
      Platform.isArch name = true ∧ parts.head? = some name := by
    intro name
    rw [endsInOne_iff hparts not_mem_of_mem_knownArch, Platform.isArch_iff]
  have htarget : targetOf parts = (parts.head?.map targetOf.lastOnly).getD .any := by
    rcases parts with _ | ⟨last, _ | ⟨system, rest⟩⟩
    · rfl
    · rfl
    · refine if_neg fun hknown => hnone system last ((endsInBoth_iff hparts).mpr ?_)
      exact ⟨Platform.isOS_iff.mp hknown.1, Platform.isArch_iff.mp hknown.2, rest, rfl⟩
  rw [htarget]
  cases hlast : parts.head? with
  | none => cases asked <;> simp [Asks, hnone, hsystem, hmachine, hlast]
  | some last =>
    rw [Option.map_some, Option.getD_some, eq_lastOnly_iff]
    cases asked with
    | both system machine => exact iff_of_false (hnone system machine) not_false
    | os system => simp [Asks, hnone, hsystem, hlast]
    | arch machine => simp [Asks, hnone, hmachine, hlast]
    | any =>
      constructor
      · intro h
        simpa [hsystem, hmachine, hlast] using h.2 last
      · intro h
        refine ⟨hnone, fun name => ?_⟩
        rw [hsystem, hmachine, hlast, Option.some.injEq]
        exact ⟨fun ⟨hname, heq⟩ => by simp [← heq, h.1] at hname,
          fun ⟨hname, heq⟩ => by simp [← heq, h.2] at hname⟩

end Parts

/-- **A name asks for the platform in which its platform part ends**, and for nothing else. -/
theorem target_eq_iff_asks {name : String} {asked : Target} :
    target name = asked ↔ Asks (platformPart name) asked := by
  have hparts : ∀ part ∈ withoutTest (partsReversed name), '_' ∉ part.toList :=
    fun part hpart => not_mem_of_mem_partsReversed ((withoutTest_isSuffix _).subset hpart)
  unfold target
  rw [← spelled_withoutTest, eq_comm]
  by_cases hboth : ∃ system machine,
      EndsInBoth (spelled (withoutTest (partsReversed name)).reverse) system machine
  · obtain ⟨system, machine, hends⟩ := hboth
    exact (asks_iff_of_endsInBoth hparts hends asked).symm
  · have hnone : ∀ system machine,
        ¬ EndsInBoth (spelled (withoutTest (partsReversed name)).reverse) system machine :=
      fun system machine hends => hboth ⟨system, machine, hends⟩
    exact (asks_iff_of_not_endsInBoth hparts hnone asked).symm

/-- Names with the same platform part ask for the same. -/
theorem target_congr {name other : String} (h : platformPart other = platformPart name) :
    target other = target name := by
  rw [target_eq_iff_asks, h, ← target_eq_iff_asks]

/-! ## 5. What makes no difference -/

theorem forall_ne_of_not_mem {c : Char} {text : List Char} (h : c ∉ text) :
    ∀ d ∈ text, decide (d ≠ c) = true :=
  fun _ hd => decide_eq_true fun heq => h (heq ▸ hd)

/-- A text that can stand behind a stem: nothing, or a dot and more. -/
def IsTail (text : String) : Prop :=
  text = "" ∨ ∃ more, text = "." ++ more

theorem stem_append {front behind : String} (hfront : '.' ∉ front.toList)
    (hbehind : IsTail behind) : stem (front ++ behind) = front.toList := by
  have hend : behind.toList.takeWhile (· ≠ '.') = [] := by
    rcases hbehind with rfl | ⟨more, rfl⟩
    · rfl
    · simp
  unfold stem
  rw [String.toList_append, List.takeWhile_append_of_pos (forall_ne_of_not_mem hfront), hend,
    List.append_nil]

/-- A text that can stand in front of the first underscore of a stem. -/
def IsFront (text : String) : Prop :=
  '_' ∉ text.toList ∧ '.' ∉ text.toList

instance (text : String) : Decidable (IsFront text) :=
  inferInstanceAs (Decidable (_ ∧ _))

/-- **What stands in front of the first underscore is never read.** -/
theorem platformPart_front {front other behind : String} (hfront : IsFront front)
    (hother : IsFront other) :
    platformPart (other ++ "_" ++ behind) = platformPart (front ++ "_" ++ behind) := by
  have hsuffix : ∀ text : String, IsFront text →
      (stem (text ++ "_" ++ behind)).dropWhile (· ≠ '_') =
        '_' :: behind.toList.takeWhile (· ≠ '.') := by
    intro text htext
    unfold stem
    rw [String.append_assoc, String.toList_append,
      List.takeWhile_append_of_pos (forall_ne_of_not_mem htext.2),
      List.dropWhile_append_of_pos (forall_ne_of_not_mem htext.1)]
    simp
  unfold platformPart
  rw [hsuffix front hfront, hsuffix other hother]

/-- **What stands behind the first dot is never read.** -/
theorem platformPart_behind {front behind other : String} (hfront : '.' ∉ front.toList)
    (hbehind : IsTail behind) (hother : IsTail other) :
    platformPart (front ++ other) = platformPart (front ++ behind) := by
  unfold platformPart
  rw [stem_append hfront hbehind, stem_append hfront hother]

/-- **One `_test` at the end of the stem is never read.** -/
theorem platformPart_test {front behind : String} (hfront : '.' ∉ front.toList)
    (hbehind : IsTail behind) (htest : ¬ "_test".toList <:+ front.toList) :
    platformPart (front ++ "_test" ++ behind) = platformPart (front ++ behind) := by
  have hlong : '.' ∉ (front ++ "_test").toList := by
    rw [String.toList_append, List.mem_append, not_or]
    exact ⟨hfront, by decide⟩
  have hsuffix : (front.toList ++ testEnding).dropWhile (· ≠ '_') =
      front.toList.dropWhile (· ≠ '_') ++ testEnding := by
    rw [List.dropWhile_append]
    split
    · rename_i hempty
      rw [List.isEmpty_iff.mp hempty]
      rfl
    · rfl
  have hkept : ¬ testEnding <:+ front.toList.dropWhile (· ≠ '_') :=
    fun hends => htest (hends.trans (List.dropWhile_suffix _))
  unfold platformPart
  rw [stem_append hlong hbehind, stem_append hfront hbehind, String.toList_append]
  exact (congrArg withoutTestEnding hsuffix).trans
    ((withoutTestEnding_append _).trans (withoutTestEnding_of_not_suffix hkept).symm)

/-! ## 6. Names are read from the suffix -/

/-- The platform that a name asks for is read from its suffix, and from nothing else: neither from
    what stands in front of the first underscore of the stem, nor from what stands behind the first
    dot, nor from one `_test` at the end of the stem. -/
structure ReadFromSuffix (name : String) : Prop where
  asks : ∀ asked, target name = asked ↔ Asks (platformPart name) asked
  front : ∀ front other behind, IsFront front → IsFront other → name = front ++ "_" ++ behind →
    target (other ++ "_" ++ behind) = target name
  behind : ∀ front behind other, '.' ∉ front.toList → IsTail behind →
    IsTail other → name = front ++ behind → target (front ++ other) = target name
  test : ∀ front behind, '.' ∉ front.toList → IsTail behind →
    ¬ "_test".toList <:+ front.toList → name = front ++ behind →
      target (front ++ "_test" ++ behind) = target name

/-- **File names are read from the suffix, and from nothing else.** -/
theorem readFromSuffix (name : String) : ReadFromSuffix name where
  asks _ := target_eq_iff_asks
  front front other behind hfront hother heq := by
    rw [heq]
    exact target_congr (platformPart_front hfront hother)
  behind front behind other hfront hbehind hother heq := by
    rw [heq]
    exact target_congr (platformPart_behind hfront hbehind hother)
  test front behind hfront hbehind htest heq := by
    rw [heq]
    exact target_congr (platformPart_test hfront hbehind htest)

/-- A system in front of the first underscore, another one behind the first dot and an empty piece
    make no difference; a second `_test` does. -/
theorem readFromSuffix_windowsName :
    let name := "linux__windows_amd64.pb_js.go"
    ReadFromSuffix name ∧ target name = .both "windows" "amd64" ∧
      target "x__windows_amd64.pb_js.go" = .both "windows" "amd64" ∧
      target "linux__windows_amd64.go" = .both "windows" "amd64" ∧
      target "linux__windows_amd64_test.pb_js.go" = .both "windows" "amd64" ∧
      target "linux__windows_amd64_test_test.pb_js.go" = .any := by
  intro name
  have hname := readFromSuffix name
  have htarget : target name = .both "windows" "amd64" := by decide +kernel
  refine ⟨hname, htarget, ?_, ?_, ?_, by decide +kernel⟩
  · exact (hname.front "linux" "x" "_windows_amd64.pb_js.go" (by decide) (by decide) rfl).trans
      htarget
  · exact (hname.behind "linux__windows_amd64" ".pb_js.go" ".go" (by decide)
      (Or.inr ⟨"pb_js.go", rfl⟩) (Or.inr ⟨"go", rfl⟩) rfl).trans htarget
  · exact (hname.test "linux__windows_amd64" ".pb_js.go" (by decide) (Or.inr ⟨"pb_js.go", rfl⟩)
      (by decide) rfl).trans htarget

end TestScout.FileName

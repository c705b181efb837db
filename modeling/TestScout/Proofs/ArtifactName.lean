import Mathlib.Data.String.Basic
import TestScout.Proofs.Path.Names
import TestScout.TestCommand

/-!
# Names of test binaries as file names

The binary of a package is written into a directory under the name of the package, so the name has
to be one segment of a path and short enough for a file system. Both are decided by the clean form
of the package's path and by its last name. Main statements:

* `isSegment_ofPath`, `not_isSegment_ofPath`: a name is one segment but for long paths of slashes;
* `output_liesIn_iff`: the binary lies in the directory asked for exactly when that is so;
* `size_ofPath`: the size of a name, in bytes;
* `fits_iff`: the names that a file system takes.
-/

namespace TestScout.ArtifactName

/-! ## 1. Short and long paths -/

/-- The clean form of a path, as text. -/
def cleaned (path : String) : String :=
  (Path.mk path).clean.text

/-- A path that is long even when clean, so that it is hashed. -/
def IsLong (path : String) : Prop :=
  hashThreshold ≤ (cleaned path).utf8ByteSize

instance (path : String) : Decidable (IsLong path) :=
  inferInstanceAs (Decidable (_ ≤ _))

theorem cleaned_of_plain {name : String} (h : PlainName name) : cleaned name = name := by
  unfold cleaned
  rw [Path.clean_name h]

theorem ofPath_of_isLong {path : String} (h : IsLong path) :
    ofPath path = hashed (cleaned path) :=
  if_pos h

theorem ofPath_of_not_isLong {path : String} (h : ¬ IsLong path) : ofPath path = flatten path :=
  if_neg h

theorem cleaned_ne_empty {path : String} (h : IsLong path) : cleaned path ≠ "" := by
  intro hempty
  unfold IsLong at h
  rw [hempty] at h
  exact absurd h (by decide)

/-- The start of the digest that stands in front of a hashed name. -/
def digestText (cleaned : String) : List Char :=
  Digest.hex ((Digest.sha256 cleaned.toUTF8.toList).take digestBytes)

theorem toList_hashed (cleaned : String) :
    (hashed cleaned).toList =
      digestText cleaned ++ '.' :: (Path.baseName cleaned).toList ++ hashedEnding.toList := by
  simp [hashed, digestText]

theorem length_digestText (cleaned : String) : (digestText cleaned).length = 16 := by
  simp [digestText, digestBytes]

/-- What is written of a byte are digits. -/
theorem exists_digitChar_of_mem_hex {bytes : List UInt8} {c : Char} (h : c ∈ Digest.hex bytes) :
    ∃ n < 16, c = Nat.digitChar n := by
  obtain ⟨byte, -, hc⟩ := List.mem_flatMap.mp h
  have hbyte : byte.toNat < 256 := byte.toNat_lt
  rcases List.mem_cons.mp hc with rfl | hc
  · exact ⟨byte.toNat / 16, by omega, rfl⟩
  · exact ⟨byte.toNat % 16, by omega, List.mem_singleton.mp hc⟩

/-- A digit is not reserved and takes one byte. -/
theorem digitChar_spec : ∀ n < 16,
    Nat.digitChar n ∉ reserved ∧ (Nat.digitChar n).utf8Size = 1 := by
  decide

theorem not_mem_digestText {cleaned : String} {c : Char} (h : c ∈ reserved) :
    c ∉ digestText cleaned := by
  intro hc
  obtain ⟨n, hn, rfl⟩ := exists_digitChar_of_mem_hex hc
  exact (digitChar_spec n hn).1 h

open String (utf8Len utf8Len_append utf8Len_cons utf8Len_toList)

theorem utf8Len_of_size_one {text : List Char} (h : ∀ c ∈ text, c.utf8Size = 1) :
    utf8Len text = text.length := by
  induction text with
  | nil => rfl
  | cons c rest ih =>
    obtain ⟨hc, hrest⟩ := List.forall_mem_cons.mp h
    rw [utf8Len_cons, ih hrest, hc, List.length_cons]

section Replicate

variable {n : Nat} {c : Char}

theorem plainName_replicate (hn : n ≠ 0) (hdot : c ≠ '.') (hslash : c ≠ '/') :
    PlainName (String.ofList (List.replicate n c)) := by
  obtain ⟨n, rfl⟩ := Nat.exists_eq_succ_of_ne_zero hn
  refine ⟨?_, ?_, ?_, ?_⟩ <;> rw [String.toList_ofList]
  · exact List.cons_ne_nil _ _
  · exact fun h => hdot (List.cons.inj h).1
  · exact fun h => hdot (List.cons.inj h).1
  · exact fun h => hslash (List.eq_of_mem_replicate h).symm

theorem size_replicate (hc : c.utf8Size = 1) :
    (String.ofList (List.replicate n c)).utf8ByteSize = n := by
  rw [String.utf8ByteSize_ofList, utf8Len_of_size_one, List.length_replicate]
  exact fun d hd => (List.eq_of_mem_replicate hd) ▸ hc

end Replicate

/-! ## 2. Slashes in a name -/

/-- A name that stands for one entry of a directory, whichever slash separates names there. -/
def IsSegment (name : String) : Prop :=
  '/' ∉ name.toList ∧ '\\' ∉ name.toList

instance (name : String) : Decidable (IsSegment name) :=
  inferInstanceAs (Decidable (_ ∧ _))

/-- A text of slashes of either kind. -/
def OnlySlashes (text : String) : Prop :=
  ∀ c ∈ text.toList, Path.isSlash c = true

instance (text : String) : Decidable (OnlySlashes text) :=
  decidable_of_iff (text.toList.all Path.isSlash = true) List.all_eq_true

/-- A long path in which no name is left: a backslash stands in a name as the file system reads it,
    and separates names as the name of a binary is read. -/
def Nameless (path : String) : Prop :=
  IsLong path ∧ OnlySlashes (cleaned path)

instance (path : String) : Decidable (Nameless path) :=
  inferInstanceAs (Decidable (_ ∧ _))

theorem dropWhile_isSlash_eq_nil_iff (text : String) :
    text.toList.reverse.dropWhile Path.isSlash = [] ↔ OnlySlashes text := by
  simp [OnlySlashes, List.dropWhile_eq_nil_iff]

/-- The last name of a text of slashes is a slash. -/
theorem baseName_of_onlySlashes {text : String} (hne : text ≠ "") (h : OnlySlashes text) :
    Path.baseName text = "/" := by
  unfold Path.baseName
  rw [if_pos ((dropWhile_isSlash_eq_nil_iff text).mpr h), if_neg hne]

theorem baseName_of_noSlash {text : String} (hne : text.toList ≠ [])
    (h : ∀ c ∈ text.toList, Path.isSlash c = false) : Path.baseName text = text := by
  have hreversed : ∀ c ∈ text.toList.reverse, Path.isSlash c = false :=
    fun c hc => h c (List.mem_reverse.mp hc)
  have hdrop : text.toList.reverse.dropWhile Path.isSlash = text.toList.reverse := by
    obtain ⟨c, rest, hcons⟩ := List.exists_cons_of_ne_nil (mt List.reverse_eq_nil_iff.mp hne)
    rw [hcons, List.dropWhile_cons_of_neg]
    simp [hreversed c (hcons ▸ List.mem_cons_self)]
  unfold Path.baseName
  rw [hdrop, if_neg (mt List.reverse_eq_nil_iff.mp hne), List.takeWhile_eq_self_iff.mpr]
  · rw [List.reverse_reverse, String.ofList_toList]
  · exact fun c hc => by simp [hreversed c hc]

/-- The last name of any other text holds no slash. -/
theorem not_mem_baseName {text : String} (h : ¬ OnlySlashes text) {c : Char}
    (hc : Path.isSlash c = true) : c ∉ (Path.baseName text).toList := by
  unfold Path.baseName
  rw [if_neg (mt (dropWhile_isSlash_eq_nil_iff text).mp h), String.toList_ofList, List.mem_reverse]
  intro hmem
  have hfalse := List.mem_takeWhile_imp hmem
  rw [hc] at hfalse
  cases hfalse

/-- No slash comes into a name but from a text of slashes. -/
theorem not_mem_ofPath {path : String} (h : ¬ Nameless path) {c : Char} (hreserved : c ∈ reserved)
    (hslash : Path.isSlash c = true) (hending : c ∉ '.' :: hashedEnding.toList) :
    c ∉ (ofPath path).toList := by
  by_cases hlong : IsLong path
  · have hbase : c ∉ (Path.baseName (cleaned path)).toList :=
      not_mem_baseName (fun hslashes => h ⟨hlong, hslashes⟩) hslash
    rw [ofPath_of_isLong hlong, toList_hashed]
    simp only [List.mem_append, List.mem_cons, not_or] at hending ⊢
    exact ⟨⟨not_mem_digestText hreserved, hending.1, hbase⟩, hending.2⟩
  · rw [ofPath_of_not_isLong hlong]
    exact not_mem_flatten hreserved

/-- **The name of a path is one segment**, unless the path is long and holds slashes only. -/
theorem isSegment_ofPath {path : String} (h : ¬ Nameless path) : IsSegment (ofPath path) :=
  ⟨not_mem_ofPath h (by decide) rfl (by decide), not_mem_ofPath h (by decide) rfl (by decide)⟩

/-- The name of such a long path has a slash behind the digest. -/
theorem toList_ofPath_of_nameless {path : String} (h : Nameless path) :
    (ofPath path).toList =
      (digestText (cleaned path) ++ ['.']) ++ '/' :: hashedEnding.toList := by
  rw [ofPath_of_isLong h.1, toList_hashed, baseName_of_onlySlashes (cleaned_ne_empty h.1) h.2]
  simp

theorem not_isSegment_ofPath {path : String} (h : Nameless path) : ¬ IsSegment (ofPath path) := by
  intro hsegment
  refine hsegment.1 ?_
  rw [toList_ofPath_of_nameless h]
  simp

/-! ## 3. The place of the binary -/

/-- The argument behind the first `-o`. -/
def outputOf : List String → Option String
  | flag :: value :: rest => if flag = "-o" then some value else outputOf (value :: rest)
  | _ => none

/-- The file is the directory itself or one of its entries. -/
def LiesIn (file dir : Path) : Prop :=
  file.components = dir.components ∨ ∃ name, file.components = dir.components ++ [.name name]

theorem outputOf_argumentsFor (options : TestOptions) (out dir : Path) :
    outputOf (TestCommand.argumentsFor { options with compileDir := some out } dir) =
      some (out.child (ofPath dir.text)).text :=
  rfl

/-- A segment is a plain name, unless the path is empty. -/
theorem plainName_of_isSegment {path : String} (h : IsSegment (ofPath path)) (hne : path ≠ "") :
    PlainName (ofPath path) := by
  by_cases hlong : IsLong path
  · refine plainName_of_length ?_ h.1
    rw [ofPath_of_isLong hlong, toList_hashed, List.append_assoc, List.length_append,
      length_digestText]
    omega
  · have hname := ofPath_of_not_isLong hlong
    have hdot : '.' ∉ (ofPath path).toList := by
      rw [hname]
      exact not_mem_flatten (by decide)
    refine ⟨fun hnil => hne ?_, fun heq => ?_, fun heq => ?_, h.1⟩
    · rw [hname] at hnil
      simpa [flatten] using hnil
    · exact hdot (heq ▸ List.mem_cons_self)
    · exact hdot (heq ▸ List.mem_cons_self)

/-- The directory and the entry in it that stand for a name with a slash. -/
def namelessParts (path : String) : List String :=
  [String.ofList (digestText (cleaned path) ++ ['.']), hashedEnding]

theorem plainName_of_mem_namelessParts (path : String) :
    ∀ name ∈ namelessParts path, PlainName name := by
  intro name hname
  rcases List.mem_cons.mp hname with rfl | hname
  · refine plainName_of_length ?_ ?_
    · rw [String.toList_ofList, List.length_append, length_digestText]
      omega
    · rw [String.toList_ofList, List.mem_append, not_or]
      exact ⟨not_mem_digestText (by decide), by decide⟩
  · obtain rfl := List.mem_singleton.mp hname
    decide

theorem ofPath_of_nameless {path : String} (h : Nameless path) :
    Path.mk (ofPath path) = Path.ofComponents ((namelessParts path).map .name) := by
  have htext : (ofPath path).toList =
      ['/'].intercalate (((namelessParts path).map Component.name).map Path.componentText) := by
    rw [toList_ofPath_of_nameless h]
    simp [namelessParts, Path.componentText]
  have hform : Path.ofComponents ((namelessParts path).map .name) =
      ⟨String.ofList (['/'].intercalate
        (((namelessParts path).map Component.name).map Path.componentText))⟩ := rfl
  rw [hform, ← htext, String.ofList_toList]

/-- **The binary lies in the directory asked for**, unless the path is long and holds slashes only:
    then it lies in a further directory. -/
theorem output_liesIn_iff (out : Path) (path : String) :
    LiesIn (out.child (ofPath path)) out ↔ ¬ Nameless path := by
  unfold LiesIn
  constructor
  · intro hlies hnameless
    have hbelow : (out.child (ofPath path)).components =
        out.components ++ (namelessParts path).map .name := by
      unfold Path.child
      rw [ofPath_of_nameless hnameless]
      exact Path.components_join_ofNames out (plainName_of_mem_namelessParts path)
    rw [hbelow] at hlies
    rcases hlies with hself | ⟨name, hentry⟩
    · have hlength := congrArg List.length hself
      simp [namelessParts] at hlength
    · have hlength := congrArg List.length hentry
      simp [namelessParts] at hlength
  · intro hnameless
    by_cases hne : path = ""
    · subst hne
      refine Or.inl ?_
      have hempty : ofPath "" = "" := by
        rw [ofPath_of_not_isLong (by decide)]
        rfl
      unfold Path.child
      rw [hempty, Path.components_join rfl (by decide)]
      exact List.append_nil _
    · have hplain := plainName_of_isSegment (isSegment_ofPath hnameless) hne
      exact Or.inr ⟨_, Path.components_child out hplain⟩

/-- **Names are one segment exactly for paths with a name in them.** The name of a binary holds no
    slash of either kind, and the binary lies in the directory asked for, unless the path is long
    even when clean and holds slashes only. -/
theorem isSegment_iff (path : String) :
    (IsSegment (ofPath path) ↔ ¬ Nameless path) ∧
      ∀ (options : TestOptions) (out : Path), ∃ file : Path,
        outputOf (TestCommand.argumentsFor { options with compileDir := some out } ⟨path⟩) =
          some file.text ∧ (LiesIn file out ↔ ¬ Nameless path) :=
  ⟨⟨fun hsegment hnameless => not_isSegment_ofPath hnameless hsegment, isSegment_ofPath⟩,
    fun options out => ⟨out.child (ofPath path), outputOf_argumentsFor options out ⟨path⟩,
      output_liesIn_iff out path⟩⟩

/-- A text of backslashes is one name as a path, and all slashes as the name of a binary. -/
theorem nameless_backslashes {n : Nat} (hn : hashThreshold ≤ n) :
    Nameless (String.ofList (List.replicate n '\\')) := by
  have hpos : n ≠ 0 := Nat.ne_of_gt (Nat.lt_of_lt_of_le (by decide) hn)
  unfold Nameless IsLong OnlySlashes
  rw [cleaned_of_plain (plainName_replicate hpos (by decide) (by decide)),
    size_replicate (by decide), String.toList_ofList]
  refine ⟨hn, fun c hc => ?_⟩
  obtain rfl := List.eq_of_mem_replicate hc
  decide

/-- The name of such a path has a slash, and the binary never lies in the directory asked for. -/
theorem not_isSegment_backslashes :
    ¬ IsSegment (ofPath (String.ofList (List.replicate 254 '\\'))) ∧
      ∀ out : Path,
        ¬ LiesIn (out.child (ofPath (String.ofList (List.replicate 254 '\\')))) out := by
  have hnameless : Nameless (String.ofList (List.replicate 254 '\\')) :=
    nameless_backslashes (Nat.le_refl _)
  exact ⟨not_isSegment_ofPath hnameless,
    fun out hlies => (output_liesIn_iff out _).mp hlies hnameless⟩

/-! ## 4. The size of a name -/

theorem utf8Len_digestText (cleaned : String) : utf8Len (digestText cleaned) = 16 := by
  have hsize : ∀ c ∈ digestText cleaned, c.utf8Size = 1 := by
    intro c hc
    obtain ⟨n, hn, rfl⟩ := exists_digitChar_of_mem_hex hc
    exact (digitChar_spec n hn).2
  rw [utf8Len_of_size_one hsize, length_digestText]

theorem size_hashed (cleaned : String) :
    (hashed cleaned).utf8ByteSize = (Path.baseName cleaned).utf8ByteSize + 26 := by
  have hending : utf8Len ('.' :: hashedEnding.toList) = 10 := by decide
  rw [← utf8Len_toList, toList_hashed, utf8Len_append, utf8Len_append, utf8Len_cons,
    utf8Len_digestText, utf8Len_toList]
  rw [utf8Len_cons] at hending
  omega

/-- Every reserved character takes as much room as what stands for it. -/
theorem utf8Size_flattenChar (c : Char) : (flattenChar c).utf8Size = c.utf8Size := by
  have hsame : reserved.all (·.utf8Size == placeholder.utf8Size) = true := by decide
  unfold flattenChar
  split
  · rename_i hc
    exact (eq_of_beq (List.all_eq_true.mp hsame c hc)).symm
  · rfl

theorem utf8Len_map_flattenChar (text : List Char) :
    utf8Len (text.map flattenChar) = utf8Len text := by
  induction text with
  | nil => rfl
  | cons c rest ih => rw [List.map_cons, utf8Len_cons, utf8Len_cons, ih, utf8Size_flattenChar]

theorem size_flatten (path : String) : (flatten path).utf8ByteSize = path.utf8ByteSize := by
  unfold flatten
  rw [String.utf8ByteSize_ofList, utf8Len_map_flattenChar, utf8Len_toList]

/-- **The size of a name**: that of the path as it is spelled, or that of the last name and what
    stands around it. -/
theorem size_ofPath (path : String) :
    (ofPath path).utf8ByteSize =
      if IsLong path then (Path.baseName (cleaned path)).utf8ByteSize + 26
      else path.utf8ByteSize := by
  split
  · rename_i hlong
    rw [ofPath_of_isLong hlong, size_hashed]
  · rename_i hlong
    rw [ofPath_of_not_isLong hlong, size_flatten]

/-- **The names that a file system takes.** The name of a long path fits if the last name in it has
    at most 229 bytes, and that of any other path if the path as it is spelled has at most 255. -/
theorem fits_iff (path : String) :
    (ofPath path).utf8ByteSize ≤ FileTree.nameLimit ↔
      if IsLong path then (Path.baseName (cleaned path)).utf8ByteSize ≤ 229
      else path.utf8ByteSize ≤ 255 := by
  have hlimit : FileTree.nameLimit = 255 := rfl
  rw [size_ofPath, hlimit]
  split <;> omega

/-- Slashes only, however many, spell the root. -/
theorem cleaned_slashes (n : Nat) :
    cleaned (String.ofList (List.replicate (n + 1) '/')) = "/" := by
  have hsplit (n : Nat) :
      (List.replicate n '/').splitOn '/' = List.replicate (n + 1) ([] : List Char) := by
    induction n with
    | zero => rfl
    | succ n ih =>
      rw [List.replicate_succ, List.splitOn_cons_eq_if_modifyHead, if_pos (by decide), ih,
        ← List.replicate_succ]
  have hinner (n : Nat) : (List.replicate n []).filterMap Path.innerComponent = [] := by
    rw [List.filterMap_eq_nil_iff]
    intro piece hpiece
    rw [List.eq_of_mem_replicate hpiece]
    rfl
  have hcomponents :
      (Path.mk (String.ofList (List.replicate (n + 1) '/'))).components = [.root] := by
    have habsolute :
        (Path.mk (String.ofList (List.replicate (n + 1) '/'))).isAbsolute = true := by
      simp [Path.isAbsolute, List.replicate_succ]
    unfold Path.components Path.pieces
    rw [String.toList_ofList, hsplit, List.replicate_succ]
    simp [habsolute, hinner]
  unfold cleaned Path.clean Path.cleanComponents
  rw [hcomponents]
  rfl

/-- The last name of a long path stands in its name at full length. -/
theorem size_ofPath_longName {n : Nat} (hn : hashThreshold ≤ n) :
    (ofPath (String.ofList (List.replicate n 'a'))).utf8ByteSize = n + 26 := by
  have hpos : n ≠ 0 := Nat.ne_of_gt (Nat.lt_of_lt_of_le (by decide) hn)
  have hplain : PlainName (String.ofList (List.replicate n 'a')) :=
    plainName_replicate hpos (by decide) (by decide)
  have hsize : (String.ofList (List.replicate n 'a')).utf8ByteSize = n :=
    size_replicate (by decide)
  have hbase : Path.baseName (String.ofList (List.replicate n 'a')) =
      String.ofList (List.replicate n 'a') := by
    refine baseName_of_noSlash hplain.nonempty fun c hc => ?_
    rw [String.toList_ofList] at hc
    obtain rfl := List.eq_of_mem_replicate hc
    decide
  have hlong : IsLong (String.ofList (List.replicate n 'a')) := by
    unfold IsLong
    rwa [cleaned_of_plain hplain, hsize]
  rw [size_ofPath, if_pos hlong, cleaned_of_plain hplain, hbase, hsize]

/-- Many slashes in a short path stand in its name, one placeholder for each. -/
theorem size_ofPath_slashes (n : Nat) :
    (ofPath (String.ofList (List.replicate (n + 1) '/'))).utf8ByteSize = n + 1 := by
  have hshort : ¬ IsLong (String.ofList (List.replicate (n + 1) '/')) := by
    unfold IsLong
    rw [cleaned_slashes]
    decide
  rw [size_ofPath, if_neg hshort, size_replicate (by decide)]

/-- Neither a long last name nor a wordy spelling is cut. -/
theorem not_fits_longName :
    ¬ (ofPath (String.ofList (List.replicate 254 'a'))).utf8ByteSize ≤ FileTree.nameLimit ∧
      ¬ (ofPath (String.ofList (List.replicate 256 '/'))).utf8ByteSize ≤ FileTree.nameLimit := by
  rw [size_ofPath_longName (show hashThreshold ≤ 254 from Nat.le_refl _), size_ofPath_slashes 255]
  decide

end TestScout.ArtifactName

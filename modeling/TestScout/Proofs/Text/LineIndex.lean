import Mathlib.Data.Nat.Init
import TestScout.Text.Lines

/-!
# The index of line starts is exact

A line starts at the beginning of a text and behind each of its line breaks but one at the very end.
The index holds these starts and no others, in ascending order, so it cuts the text into its lines
without a gap, and a place is in the line whose number counts the line breaks before it. The starts
can be told byte by byte or by a search that goes from one line break to the next one. Main
statements:

* `mem_startsFrom_iff`, `pairwise_startsFrom`, `length_startsFrom`: which starts there are;
* `countP_startsFrom`: how many of them lie up to a place;
* `lineHolds_iff`: a place is in one line only, which has the number of the line breaks before it;
* `flatten_slices`: the bytes of the lines are the bytes of the text;
* `Search.starts_run_start`: the search from one line break to the next one finds the same starts.
-/

namespace TestScout.LineIndex

/-! ## 1. The starts of lines -/

theorem startsFrom_cons (offset : Nat) (byte : UInt8) (rest : List UInt8) :
    startsFrom offset (byte :: rest) =
      (if byte = 10 ∧ rest ≠ [] then [offset + 1] else []) ++ startsFrom (offset + 1) rest := by
  cases rest with
  | nil => simp [startsFrom]
  | cons next more =>
    rw [startsFrom]
    by_cases hbyte : byte = 10 <;> simp [hbyte]

/-- **A line starts behind every line break but one at the very end.** -/
theorem mem_startsFrom_iff {bytes : List UInt8} {offset start : Nat} :
    start ∈ startsFrom offset bytes ↔
      ∃ place, bytes[place]? = some 10 ∧ place + 1 < bytes.length ∧ start = offset + place + 1 := by
  induction bytes generalizing offset with
  | nil => simp [startsFrom]
  | cons byte rest ih =>
    have hfirst : start ∈ (if byte = 10 ∧ rest ≠ [] then [offset + 1] else []) ↔
        byte = 10 ∧ rest ≠ [] ∧ start = offset + 1 := by
      split <;> simp_all
    rw [startsFrom_cons, List.mem_append, hfirst, ih]
    refine Iff.trans (or_congr ?_ (exists_congr fun place => ?_)) Nat.or_exists_add_one
    · simp [List.length_pos_iff]
    · have hsum : offset + 1 + place + 1 = offset + (place + 1) + 1 := by omega
      simp only [List.getElem?_cons_succ, List.length_cons, Nat.add_lt_add_iff_right, hsum]

/-- Starts ascend, and lie behind the offset from which they are counted. -/
theorem pairwise_startsFrom (offset : Nat) (bytes : List UInt8) :
    (offset :: startsFrom offset bytes).Pairwise (· < ·) := by
  induction bytes generalizing offset with
  | nil => simp [startsFrom]
  | cons byte rest ih =>
    refine List.pairwise_cons.mpr ⟨fun start hstart => ?_, ?_⟩
    · obtain ⟨place, -, -, rfl⟩ := mem_startsFrom_iff.mp hstart
      omega
    · rw [startsFrom_cons]
      split
      · exact ih (offset + 1)
      · exact (List.pairwise_cons.mp (ih (offset + 1))).2

/-- **As many starts lie up to a place as line breaks lie before it.** -/
theorem countP_startsFrom {bytes : List UInt8} {place : Nat} (h : place < bytes.length)
    (offset : Nat) :
    (startsFrom offset bytes).countP (· ≤ offset + place) = (bytes.take place).count 10 := by
  induction bytes generalizing place offset with
  | nil => exact absurd h (Nat.not_lt_zero place)
  | cons byte rest ih =>
    cases place with
    | zero =>
      rw [List.take_zero, List.count_nil, List.countP_eq_zero]
      intro start hstart
      obtain ⟨place, -, -, rfl⟩ := mem_startsFrom_iff.mp hstart
      rw [decide_eq_true_iff]
      omega
    | succ place =>
      have hplace : place < rest.length := Nat.lt_of_succ_lt_succ h
      have hrest : rest ≠ [] := List.ne_nil_of_length_pos (Nat.zero_lt_of_lt hplace)
      have hsum : offset + (place + 1) = offset + 1 + place := by omega
      rw [startsFrom_cons, List.countP_append, hsum, ih hplace, List.take_succ_cons,
        List.count_cons, Nat.add_comm]
      by_cases hbyte : byte = 10
      · simp [hbyte, hrest]
      · simp [hbyte]

theorem length_startsFrom (offset : Nat) (bytes : List UInt8) :
    (startsFrom offset bytes).length = bytes.dropLast.count 10 := by
  induction bytes generalizing offset with
  | nil => simp [startsFrom]
  | cons byte rest ih =>
    rw [startsFrom_cons, List.length_append, ih]
    cases rest with
    | nil => simp
    | cons next more =>
      rw [List.dropLast_cons_cons, List.count_cons, Nat.add_comm]
      by_cases hbyte : byte = 10 <;> simp [hbyte]

section Index

variable (bytes : List UInt8)

theorem pairwise_starts : (ofBytes bytes).starts.Pairwise (· < ·) :=
  pairwise_startsFrom 0 bytes

/-- **The starts are the beginning and what stands behind a line break.** -/
theorem mem_starts_iff {start : Nat} :
    start ∈ (ofBytes bytes).starts ↔
      start = 0 ∨
        ∃ place, bytes[place]? = some 10 ∧ place + 1 < bytes.length ∧ start = place + 1 := by
  unfold ofBytes
  rw [List.mem_cons, mem_startsFrom_iff]
  simp only [Nat.zero_add]

theorem lineCount_ofBytes : (ofBytes bytes).lineCount = 1 + bytes.dropLast.count 10 := by
  unfold lineCount ofBytes
  rw [List.length_cons, length_startsFrom, Nat.add_comm]

/-- No start lies behind the text. -/
theorem le_length_of_mem_starts {start : Nat} (h : start ∈ (ofBytes bytes).starts) :
    start ≤ bytes.length := by
  rcases (mem_starts_iff bytes).mp h with rfl | ⟨place, -, hplace, rfl⟩
  · exact Nat.zero_le _
  · exact Nat.le_of_lt hplace

end Index

/-! ## 2. Lines and the places in them -/

/-- The line with this number holds a place of a text of this size: it starts there or before, and
    the next line starts behind the place, or the text ends behind it if there is no next line. -/
def LineHolds (index : LineIndex) (size line place : Nat) : Prop :=
  ∃ start, index.startOfLine line = some start ∧ start ≤ place ∧
    place < (index.startOfLine (line + 1)).getD size

/-- Of ascending numbers the first ones are those up to a bound. -/
theorem getElem_le_iff_lt_countP {starts : List Nat} (h : starts.Pairwise (· < ·)) {n bound : Nat}
    (hn : n < starts.length) : starts[n] ≤ bound ↔ n < starts.countP (· ≤ bound) := by
  induction starts generalizing n with
  | nil => exact absurd hn (Nat.not_lt_zero n)
  | cons start rest ih =>
    obtain ⟨hfirst, hrest⟩ := List.pairwise_cons.mp h
    by_cases hstart : start ≤ bound
    · rw [List.countP_cons_of_pos (by simpa using hstart)]
      cases n with
      | zero => simpa using hstart
      | succ n =>
        rw [List.getElem_cons_succ, ih hrest (Nat.lt_of_succ_lt_succ hn), Nat.succ_lt_succ_iff]
    · have hnone : (start :: rest).countP (· ≤ bound) = 0 := by
        rw [List.countP_eq_zero]
        intro other hother
        rw [decide_eq_true_iff]
        rcases List.mem_cons.mp hother with rfl | hother
        · exact hstart
        · have hless := hfirst other hother
          omega
      rw [hnone]
      refine iff_of_false (fun hle => ?_) (Nat.not_lt_zero n)
      cases n with
      | zero => exact hstart hle
      | succ n =>
        have hless := hfirst _ (List.getElem_mem (Nat.lt_of_succ_lt_succ hn))
        rw [List.getElem_cons_succ] at hle
        omega

/-- A line has a start up to a bound if there are more such starts than lines before it. -/
theorem exists_startOfLine_le_iff {index : LineIndex} (h : index.starts.Pairwise (· < ·))
    {n bound : Nat} :
    (∃ start, index.startOfLine (n + 1) = some start ∧ start ≤ bound) ↔
      n < index.starts.countP (· ≤ bound) := by
  constructor
  · intro hstart
    obtain ⟨start, hsome, hle⟩ := hstart
    obtain ⟨hn, rfl⟩ := List.getElem?_eq_some_iff.mp hsome
    exact (getElem_le_iff_lt_countP h hn).mp hle
  · intro hcount
    have hn : n < index.starts.length := Nat.lt_of_lt_of_le hcount List.countP_le_length
    exact ⟨index.starts[n], List.getElem?_eq_getElem hn, (getElem_le_iff_lt_countP h hn).mpr hcount⟩

/-- **A place is in the line whose number counts the starts up to there.** -/
theorem lineHolds_iff_countP {index : LineIndex} (h : index.starts.Pairwise (· < ·))
    {size line place : Nat} (hplace : place < size) :
    index.LineHolds size line place ↔
      1 ≤ line ∧ line = index.starts.countP (· ≤ place) := by
  have hnext : place < (index.startOfLine (line + 1)).getD size ↔
      ¬ ∃ start, index.startOfLine (line + 1) = some start ∧ start ≤ place := by
    cases index.startOfLine (line + 1) with
    | none => simpa using hplace
    | some start => simp
  unfold LineHolds
  cases line with
  | zero => simp
  | succ n =>
    simp only [hnext, ← and_assoc, exists_and_right, exists_startOfLine_le_iff h]
    omega

/-- **A place of a text is in one line only, and the number of this line counts the line breaks
    before the place.** -/
theorem lineHolds_iff {bytes : List UInt8} {place : Nat} (h : place < bytes.length) (line : Nat) :
    (ofBytes bytes).LineHolds bytes.length line place ↔
      line = 1 + (bytes.take place).count 10 := by
  have hcount : (ofBytes bytes).starts.countP (· ≤ place) = 1 + (bytes.take place).count 10 := by
    have hrest := countP_startsFrom h 0
    rw [Nat.zero_add] at hrest
    unfold ofBytes
    rw [List.countP_cons_of_pos (by simp), hrest, Nat.add_comm]
  rw [lineHolds_iff_countP (pairwise_starts bytes) h, hcount]
  exact and_iff_right_of_imp fun hline => by omega

/-! ## 3. The bytes of the lines -/

/-- The bytes from one place up to another one. -/
def slice (bytes : List UInt8) (first last : Nat) : List UInt8 :=
  (bytes.drop first).take (last - first)

/-- The bytes of the lines: from each start up to the next one, or to the end. -/
def slices (index : LineIndex) (bytes : List UInt8) : List (List UInt8) :=
  List.zipWith (slice bytes) index.starts (index.starts.tail ++ [bytes.length])

theorem slice_append_slice {bytes : List UInt8} {first middle last : Nat}
    (hfirst : first ≤ middle) (hlast : middle ≤ last) :
    slice bytes first middle ++ slice bytes middle last = slice bytes first last := by
  have hdrop : bytes.drop middle = (bytes.drop first).drop (middle - first) := by
    rw [List.drop_drop, Nat.add_sub_cancel' hfirst]
  have hsum : last - first = (middle - first) + (last - middle) := by omega
  unfold slice
  rw [hdrop, hsum, List.take_add]

/-- What stands between ascending cuts, put together again. -/
theorem flatten_zipWith_slice {bytes : List UInt8} {first last : Nat} {cuts : List Nat}
    (h : (first :: cuts).Pairwise (· < ·)) (hlast : ∀ cut ∈ first :: cuts, cut ≤ last) :
    (List.zipWith (slice bytes) (first :: cuts) (cuts ++ [last])).flatten =
      slice bytes first last := by
  induction cuts generalizing first with
  | nil => simp
  | cons cut cuts ih =>
    obtain ⟨hfirst, hrest⟩ := List.pairwise_cons.mp h
    obtain ⟨-, hcuts⟩ := List.forall_mem_cons.mp hlast
    rw [List.cons_append, List.zipWith_cons_cons, List.flatten_cons, ih hrest hcuts]
    exact slice_append_slice (Nat.le_of_lt (hfirst cut List.mem_cons_self))
      (hcuts cut List.mem_cons_self)

/-- **The bytes of the lines are the bytes of the text.** -/
theorem flatten_slices (bytes : List UInt8) : ((ofBytes bytes).slices bytes).flatten = bytes := by
  have hwhole : slice bytes 0 bytes.length = bytes := by simp [slice]
  refine Eq.trans ?_ hwhole
  exact flatten_zipWith_slice (pairwise_starts bytes)
    fun start hstart => le_length_of_mem_starts bytes hstart

/-! ## 4. The search for line breaks -/

/-- A search under way: the place from which it goes on, and the starts that were found. -/
structure Search where
  place : Nat
  starts : List Nat
deriving DecidableEq, Repr

namespace Search

/-- A search begins with the start of the first line. -/
def start : Search := ⟨0, [0]⟩

/-- One round: the next line break is looked for, and the place behind it is a start unless it is
    the end. -/
def next? (bytes : List UInt8) (search : Search) : Option Search :=
  ((bytes.drop search.place).findIdx? (· = 10)).map fun distance =>
    let place := search.place + distance + 1
    ⟨place, if place < bytes.length then search.starts ++ [place] else search.starts⟩

/-- **A round cuts the text that is left at its first line break**, and finds the start behind it
    unless nothing stands there. -/
theorem exists_of_next? {bytes : List UInt8} {search next : Search}
    (h : search.next? bytes = some next) :
    ∃ line behind, bytes.drop search.place = line ++ 10 :: behind ∧ 10 ∉ line ∧
      next.place = search.place + line.length + 1 ∧ bytes.drop next.place = behind ∧
      next.starts = search.starts ++ if behind = [] then [] else [next.place] := by
  obtain ⟨distance, hdistance, rfl⟩ := Option.map_eq_some_iff.mp h
  obtain ⟨hlength, hbreak, hbefore⟩ := List.findIdx?_eq_some_iff_getElem.mp hdistance
  have hline : ((bytes.drop search.place).take distance).length = distance :=
    List.length_take_of_le (Nat.le_of_lt hlength)
  refine ⟨(bytes.drop search.place).take distance, (bytes.drop search.place).drop (distance + 1),
    ?_, ?_, ?_, ?_, ?_⟩
  · have hten : (bytes.drop search.place)[distance] = 10 := by simpa using hbreak
    rw [← hten, List.getElem_cons_drop, List.take_append_drop]
  · intro hmem
    obtain ⟨n, hn, hten⟩ := List.mem_iff_getElem.mp hmem
    rw [hline] at hn
    rw [List.getElem_take] at hten
    exact hbefore n hn (by simpa using hten)
  · rw [hline]
  · rw [List.drop_drop, Nat.add_assoc]
  · rw [List.drop_drop, ← Nat.add_assoc]
    simp only [List.drop_eq_nil_iff]
    split <;> rename_i hplace
    · rw [if_neg (Nat.not_le.mpr hplace)]
    · rw [if_pos (Nat.le_of_not_lt hplace), List.append_nil]

/-- **A round goes on, and not beyond the text.** -/
theorem place_lt_of_next? {bytes : List UInt8} {search next : Search}
    (h : search.next? bytes = some next) :
    search.place < next.place ∧ next.place ≤ bytes.length := by
  obtain ⟨line, behind, hsplit, -, hplace, -, -⟩ := exists_of_next? h
  have hlength := congrArg List.length hsplit
  rw [List.length_drop, List.length_append, List.length_cons] at hlength
  omega

/-- Rounds until no line break is found or nothing is left; there is a last one, because each round
    leaves less of the text. -/
def run (bytes : List UInt8) (search : Search) : Search :=
  match _h : search.next? bytes with
  | none => search
  | some next => if bytes.length ≤ next.place then next else run bytes next
termination_by bytes.length - search.place
decreasing_by
  have hless := place_lt_of_next? _h
  omega

/-- The starts that a search has found and those that are still to come. -/
def allStarts (bytes : List UInt8) (search : Search) : List Nat :=
  search.starts ++ startsFrom search.place (bytes.drop search.place)

theorem startsFrom_append_break {line : List UInt8} (h : 10 ∉ line) (offset : Nat)
    (behind : List UInt8) :
    startsFrom offset (line ++ 10 :: behind) =
      (if behind = [] then [] else [offset + line.length + 1]) ++
        startsFrom (offset + line.length + 1) behind := by
  induction line generalizing offset with
  | nil =>
    rw [List.nil_append, startsFrom_cons]
    by_cases hbehind : behind = [] <;> simp [hbehind]
  | cons byte line ih =>
    obtain ⟨hbyte, hline⟩ := not_or.mp (fun hmem => h (List.mem_cons.mpr hmem))
    have hsum : offset + 1 + line.length = offset + (line.length + 1) := by omega
    rw [List.cons_append, startsFrom_cons, if_neg (fun hten => hbyte hten.1.symm), List.nil_append,
      ih hline, List.length_cons, hsum]

/-- **A round neither loses nor invents a start.** -/
theorem allStarts_of_next? {bytes : List UInt8} {search next : Search}
    (h : search.next? bytes = some next) : next.allStarts bytes = search.allStarts bytes := by
  obtain ⟨line, behind, hsplit, hline, hplace, hbehind, hstarts⟩ := exists_of_next? h
  unfold allStarts
  rw [hbehind, hstarts, hsplit, startsFrom_append_break hline, ← hplace, List.append_assoc]

/-- Without a line break there is nothing to come. -/
theorem allStarts_of_next?_eq_none {bytes : List UInt8} {search : Search}
    (h : search.next? bytes = none) : search.allStarts bytes = search.starts := by
  have hnone : startsFrom search.place (bytes.drop search.place) = [] := by
    refine List.eq_nil_iff_forall_not_mem.mpr fun start hstart => ?_
    obtain ⟨place, hten, -, -⟩ := mem_startsFrom_iff.mp hstart
    have hbreak := List.findIdx?_eq_none_iff.mp (Option.map_eq_none_iff.mp h) 10
      (List.mem_of_getElem? hten)
    simp at hbreak
  unfold allStarts
  rw [hnone, List.append_nil]

/-- **A search ends with all starts.** -/
theorem starts_run (bytes : List UInt8) (search : Search) :
    (search.run bytes).starts = search.allStarts bytes := by
  fun_induction run bytes search with
  | case1 search hnone => exact (allStarts_of_next?_eq_none hnone).symm
  | case2 search next hnext hend =>
    -- The last line break ends the text: nothing is left in which a line could start.
    rw [← allStarts_of_next? hnext]
    unfold allStarts
    rw [List.drop_eq_nil_of_le hend, startsFrom, List.append_nil]
  | case3 search next hnext hend ih => rw [ih, allStarts_of_next? hnext]

/-- **The search from the beginning makes the index.** -/
theorem starts_run_start (bytes : List UInt8) :
    (start.run bytes).starts = (ofBytes bytes).starts :=
  starts_run bytes start

end Search

end TestScout.LineIndex

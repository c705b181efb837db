import TestScout.PositionQuery
import TestScout.Proofs.Text.Decimal

/-!
# Queries are read as they are written

A query is cut at its last two colons, and digits hold no colon: so there is one way to cut, and
what stands before it may be any text. Main statement:

* `PositionQuery.read_iff_written`: what is read is what is written, with either number in any of
  its spellings.
-/

namespace TestScout

namespace PositionQuery

open Decimal (Numeral)

/-- A text that asks a query: its path, and its line and its column in any spelling. -/
def Asks (text : List Char) (query : PositionQuery) : Prop :=
  ∃ line column, Numeral line query.line ∧ Numeral column query.column ∧
    text = query.path.text.toList ++ ':' :: (line ++ ':' :: column)

/-- **The query that is read is the one that the text asks**, with numbers that fit a word. -/
theorem read_eq_ok_iff {text : List Char} {query : PositionQuery} :
    read text = .ok query ↔ Asks text query ∧ query.line < 2 ^ 64 ∧ query.column < 2 ^ 64 := by
  constructor
  · intro h
    unfold read at h
    split at h
    · cases h
    · rename_i rest column hcolumn
      split at h
      · cases h
      · rename_i columnNumber hcolumnNumber
        split at h
        · cases h
        · rename_i path line hline
          split at h
          · cases h
          · rename_i lineNumber hlineNumber
            obtain rfl := Except.ok.inj h
            obtain ⟨hcolumnNumeral, hcolumnFits⟩ := Decimal.read?_eq_some_iff.mp hcolumnNumber
            obtain ⟨hlineNumeral, hlineFits⟩ := Decimal.read?_eq_some_iff.mp hlineNumber
            obtain ⟨htext, -⟩ := splitLast_eq_some hcolumn
            obtain ⟨hrest, -⟩ := splitLast_eq_some hline
            refine ⟨⟨line, column, hlineNumeral, hcolumnNumeral, ?_⟩,
              Decimal.le_wordMax_iff.mp hlineFits, Decimal.le_wordMax_iff.mp hcolumnFits⟩
            rw [htext, hrest, String.toList_ofList, List.append_assoc, List.cons_append]
  · intro h
    obtain ⟨⟨line, column, hline, hcolumn, rfl⟩, hlineFits, hcolumnFits⟩ := h
    have hcut : splitLast ':' (query.path.text.toList ++ ':' :: (line ++ ':' :: column)) =
        some (query.path.text.toList ++ ':' :: line, column) := by
      rw [← List.cons_append, ← List.append_assoc]
      exact splitLast_append _ hcolumn.colon_not_mem
    have hlineNumber := Decimal.read?_eq_some_iff.mpr
      ⟨hline, Decimal.le_wordMax_iff.mpr hlineFits⟩
    have hcolumnNumber := Decimal.read?_eq_some_iff.mpr
      ⟨hcolumn, Decimal.le_wordMax_iff.mpr hcolumnFits⟩
    unfold read
    rw [hcut]
    simp only [hcolumnNumber, splitLast_append _ hline.colon_not_mem, hlineNumber,
      String.ofList_toList]

/-- What is written for a query asks it. -/
theorem asks_render (query : PositionQuery) : Asks query.render.toList query := by
  refine ⟨_, _, Decimal.numeral_toString query.line, Decimal.numeral_toString query.column, ?_⟩
  unfold render
  simp [String.toList_append]

/-- **Reading and writing queries are inverse.** A query is read back from what is written for it
    exactly if its numbers fit a word, whatever its path is; and a text is read as a query exactly
    if it asks it, in any spelling of the numbers, and they fit. -/
theorem read_iff_written :
    (∀ query : PositionQuery, read query.render.toList = .ok query ↔
      query.line < 2 ^ 64 ∧ query.column < 2 ^ 64) ∧
    ∀ (text : List Char) (query : PositionQuery), read text = .ok query ↔
      Asks text query ∧ query.line < 2 ^ 64 ∧ query.column < 2 ^ 64 := by
  refine ⟨fun query => ?_, fun text query => read_eq_ok_iff⟩
  rw [read_eq_ok_iff]
  exact and_iff_right (asks_render query)

/-- Colons of the path and a plus sign in front of a number. -/
example : read "C:\\a:7.go:+03:4".toList = .ok ⟨⟨"C:\\a:7.go"⟩, 3, 4⟩ := by decide

end PositionQuery

end TestScout

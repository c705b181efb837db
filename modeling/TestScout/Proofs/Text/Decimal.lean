import Mathlib.Data.List.Induction
import Mathlib.Data.Nat.Digits.Defs
import TestScout.Text.Decimal

/-!
# Numbers are read as they are written

A number is written with at least one digit, any zeros in front of it, and where a plus sign may
stand, with or without one. Main statements:

* `digits?_eq_some_iff`, `read?_eq_some_iff`: which texts are numbers, and which within a bound;
* `digits_toString`, `numeral_toString`: the decimal form of a number is one of its spellings.
-/

namespace TestScout.Decimal

/-- The value of one digit. -/
def digitValue (c : Char) : Nat :=
  c.toNat - '0'.toNat

/-- Digits that denote a number: there is at least one, and the last one counts ones. -/
structure Digits (text : List Char) (number : Nat) : Prop where
  nonempty : text ≠ []
  digits : ∀ c ∈ text, c.isDigit = true
  denotes : number = Nat.ofDigits 10 (text.reverse.map digitValue)

/-- A text that denotes a number: digits, with or without a plus sign in front. -/
def Numeral (text : List Char) (number : Nat) : Prop :=
  ∃ digits, Digits digits number ∧ (text = digits ∨ text = '+' :: digits)

/-- Each digit counts ten times what the one behind it counts. -/
theorem foldl_digits (text : List Char) :
    text.foldl (fun n c => 10 * n + (c.toNat - '0'.toNat)) 0 =
      Nat.ofDigits 10 (text.reverse.map digitValue) := by
  induction text using List.reverseRecOn with
  | nil => rfl
  | append_singleton front last ih =>
    rw [List.foldl_append, List.foldl_cons, List.foldl_nil, ih, List.reverse_concat,
      List.map_cons, Nat.ofDigits_cons, Nat.add_comm]
    rfl

theorem digits?_eq_some_iff {text : List Char} {number : Nat} :
    digits? text = some number ↔ Digits text number := by
  unfold digits?
  rw [foldl_digits]
  constructor
  · intro h
    split at h
    · cases h
    · rename_i hdigits
      simp only [Bool.or_eq_true, not_or, Bool.not_eq_true', Bool.not_eq_true,
        Bool.not_eq_false] at hdigits
      exact ⟨by simpa using hdigits.1, List.all_eq_true.mp hdigits.2, (Option.some.inj h).symm⟩
  · intro h
    rw [if_neg, h.denotes]
    simp only [Bool.or_eq_true, not_or, Bool.not_eq_true', Bool.not_eq_true, Bool.not_eq_false]
    exact ⟨by simpa using h.nonempty, List.all_eq_true.mpr h.digits⟩

/-- A plus sign is no digit. -/
theorem not_digits_plus {rest : List Char} {number : Nat} : ¬ Digits ('+' :: rest) number :=
  fun h => absurd (h.digits '+' List.mem_cons_self) (by decide)

/-- **The numbers that are read are those that a text denotes, up to the bound.** -/
theorem read?_eq_some_iff {bound : Nat} {text : List Char} {number : Nat} :
    read? bound text = some number ↔ Numeral text number ∧ number ≤ bound := by
  unfold read?
  simp only [Option.filter_eq_some_iff, decide_eq_true_eq]
  refine and_congr_left fun _ => ?_
  unfold Numeral
  split
  · rename_i rest
    rw [digits?_eq_some_iff]
    constructor
    · exact fun h => ⟨rest, h, Or.inr rfl⟩
    · intro h
      obtain ⟨digits, hdigits, htext | htext⟩ := h
      · rw [← htext] at hdigits
        exact absurd hdigits not_digits_plus
      · rwa [(List.cons.inj htext).2]
  · rename_i hplus
    rw [digits?_eq_some_iff]
    constructor
    · exact fun h => ⟨text, h, Or.inl rfl⟩
    · intro h
      obtain ⟨digits, hdigits, htext | htext⟩ := h
      · rwa [htext]
      · exact absurd htext (hplus digits)

/-- The decimal form of a number denotes it. -/
theorem digits_toString (number : Nat) : Digits (toString number).toList number := by
  rw [Nat.toString_eq_repr, Nat.toList_repr]
  refine ⟨Nat.toDigits_ne_nil, fun c hc => ?_, ?_⟩
  · exact Nat.isDigit_of_mem_toDigits (by decide) (by decide) hc
  · rw [← foldl_digits, ← Nat.ofDigitChars_eq_foldl, Nat.ofDigitChars_ten_toDigits]

/-- **A number is read back from its decimal form.** -/
theorem numeral_toString (number : Nat) : Numeral (toString number).toList number :=
  ⟨_, digits_toString number, Or.inl rfl⟩

/-- A number holds no colon. -/
theorem Numeral.colon_not_mem {text : List Char} {number : Nat} (h : Numeral text number) :
    ':' ∉ text := by
  obtain ⟨digits, hdigits, htext⟩ := h
  have hnone : ':' ∉ digits := fun hmem => absurd (hdigits.digits ':' hmem) (by decide)
  cases htext with
  | inl htext => rwa [htext]
  | inr htext =>
    rw [htext]
    exact List.not_mem_cons_of_ne_of_not_mem (by decide) hnone

theorem le_wordMax_iff {number : Nat} : number ≤ wordMax ↔ number < 2 ^ 64 := by
  unfold wordMax
  rw [Nat.pow_eq]
  omega

end TestScout.Decimal

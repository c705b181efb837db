import Mathlib.Tactic.SplitIfs

/-!
# The order of texts is the order of their bytes

Texts are compared character by character, their UTF-8 forms byte by byte. The two orders are one,
because a character with a larger number has a larger form at the first byte in which the forms
differ. Main statements:

* `encode_append_lt`: the form of a smaller character comes first, whatever follows;
* `le_iff_bytes_le`: one text comes before another exactly if its bytes do.
-/

namespace TestScout.ByteOrder

/-- The UTF-8 form of a text. -/
def bytes (text : String) : List UInt8 :=
  text.toUTF8.data.toList

/-- The form of a text is made of the forms of its characters. -/
theorem bytes_eq (text : String) : bytes text = text.toList.flatMap String.utf8EncodeChar := by
  unfold bytes
  rw [String.toUTF8_eq_toByteArray, ← String.utf8Encode_toList]
  exact List.toList_data_toByteArray

theorem lt_ofNat_iff {a b : Nat} (ha : a < 256) (hb : b < 256) :
    UInt8.ofNat a < UInt8.ofNat b ↔ a < b := by
  rw [UInt8.lt_iff_toNat_lt, UInt8.toNat_ofNat', UInt8.toNat_ofNat', Nat.mod_eq_of_lt ha,
    Nat.mod_eq_of_lt hb]

theorem ofNat_inj_iff {a b : Nat} (ha : a < 256) (hb : b < 256) :
    UInt8.ofNat a = UInt8.ofNat b ↔ a = b := by
  rw [← UInt8.toNat_inj, UInt8.toNat_ofNat', UInt8.toNat_ofNat', Nat.mod_eq_of_lt ha,
    Nat.mod_eq_of_lt hb]

/-- Of two numbers the smaller one has the smaller digit at the first place where they differ, the
    digits being those of the longest form. -/
theorem digits_lt {v w : Nat} (h : v < w) :
    v / 262144 < w / 262144 ∨ v / 262144 = w / 262144 ∧
      (v / 4096 % 64 < w / 4096 % 64 ∨ v / 4096 % 64 = w / 4096 % 64 ∧
        (v / 64 % 64 < w / 64 % 64 ∨ v / 64 % 64 = w / 64 % 64 ∧ v % 64 < w % 64)) := by
  have hone : v / 64 < w / 64 ∨ v / 64 = w / 64 ∧ v % 64 < w % 64 := by omega
  have htwo : v / 64 < w / 64 →
      v / 4096 < w / 4096 ∨ v / 4096 = w / 4096 ∧ v / 64 % 64 < w / 64 % 64 := by omega
  have hthree : v / 4096 < w / 4096 →
      v / 262144 < w / 262144 ∨ v / 262144 = w / 262144 ∧ v / 4096 % 64 < w / 4096 % 64 := by
    omega
  rcases hone with h | ⟨h, hlast⟩
  · rcases htwo h with h | ⟨h, hlast⟩
    · rcases hthree h with h | ⟨h, hlast⟩
      · exact Or.inl h
      · exact Or.inr ⟨h, Or.inl hlast⟩
    · exact Or.inr ⟨by omega, Or.inr ⟨by omega, Or.inl hlast⟩⟩
  · exact Or.inr ⟨by omega, Or.inr ⟨by omega, Or.inr ⟨by omega, hlast⟩⟩⟩

/-- **The form of a smaller character comes first, whatever follows.** -/
theorem encode_append_lt {c d : Char} (h : c < d) (xs ys : List UInt8) :
    String.utf8EncodeChar c ++ xs < String.utf8EncodeChar d ++ ys := by
  have hlt : c.val.toNat < d.val.toNat := h
  have hmax : d.val.toNat < 0x110000 := by
    have hvalid := d.valid
    unfold UInt32.isValidChar Nat.isValidChar at hvalid
    omega
  generalize hv : c.val.toNat = v at hlt
  generalize hw : d.val.toNat = w at hlt hmax
  unfold String.utf8EncodeChar
  simp only [hv, hw]
  by_cases hlong : 0xffff < v
  · have hv₁ : ¬ v ≤ 0x7f := by omega
    have hv₂ : ¬ v ≤ 0x7ff := by omega
    have hv₃ : ¬ v ≤ 0xffff := by omega
    have hw₁ : ¬ w ≤ 0x7f := by omega
    have hw₂ : ¬ w ≤ 0x7ff := by omega
    have hw₃ : ¬ w ≤ 0xffff := by omega
    have hfirst : v / 262144 < 8 ∧ w / 262144 < 8 := by omega
    simp (disch := omega) only [hv₁, hv₂, hv₃, hw₁, hw₂, hw₃, if_false, List.cons_append,
      List.cons_lt_cons_iff, lt_ofNat_iff, ofNat_inj_iff]
    rcases digits_lt hlt with hdigit | ⟨h₁, hdigit | ⟨h₂, hdigit | ⟨h₃, hdigit⟩⟩⟩ <;> omega
  · split_ifs <;>
      simp (disch := omega) only [List.cons_append, List.nil_append, List.cons_lt_cons_iff,
        lt_ofNat_iff, ofNat_inj_iff] <;>
      omega

theorem encode_ne_nil (c : Char) : String.utf8EncodeChar c ≠ [] := by
  unfold String.utf8EncodeChar
  dsimp only
  split_ifs <;> exact List.cons_ne_nil _ _

/-- What two texts begin with alike does not decide. -/
theorem append_lt_append_left {front xs ys : List UInt8} :
    front ++ xs < front ++ ys ↔ xs < ys := by
  induction front with
  | nil => rfl
  | cons b rest ih =>
    rw [List.cons_append, List.cons_append, List.cons_lt_cons_iff, ih]
    constructor
    · rintro (h | ⟨-, h⟩)
      · exact absurd h (UInt8.lt_irrefl b)
      · exact h
    · intro h
      exact Or.inr ⟨rfl, h⟩

theorem flatMap_encode_lt {xs ys : List Char} (h : xs < ys) :
    xs.flatMap String.utf8EncodeChar < ys.flatMap String.utf8EncodeChar := by
  induction h with
  | nil =>
    rename_i d ys
    obtain ⟨b, rest, hb⟩ := List.exists_cons_of_ne_nil (encode_ne_nil d)
    rw [List.flatMap_nil, List.flatMap_cons, hb]
    exact List.nil_lt_cons _ _
  | rel hlt =>
    rw [List.flatMap_cons, List.flatMap_cons]
    exact encode_append_lt hlt _ _
  | cons _ ih =>
    rw [List.flatMap_cons, List.flatMap_cons]
    exact append_lt_append_left.mpr ih

/-- **One text comes before another exactly if its bytes do.** -/
theorem le_iff_bytes_le {x y : String} : x ≤ y ↔ bytes x ≤ bytes y := by
  rw [bytes_eq, bytes_eq]
  constructor
  · intro h
    by_cases heq : x = y
    · rw [heq]
      exact List.le_refl _
    · have hlt : x < y := Std.lt_of_le_of_ne h heq
      exact List.le_of_lt (flatMap_encode_lt (String.lt_iff.mp hlt))
  · intro h
    refine Std.not_lt.mp fun hlt => ?_
    exact h (flatMap_encode_lt (String.lt_iff.mp hlt))

theorem lt_iff_bytes_lt {x y : String} : x < y ↔ bytes x < bytes y := by
  rw [← Std.not_le, le_iff_bytes_le]
  exact Std.not_le

end TestScout.ByteOrder

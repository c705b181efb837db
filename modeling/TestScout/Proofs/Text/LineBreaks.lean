import TestScout.Proofs.Text.ByteOrder

/-!
# The bytes of a text and its line breaks

A line index is made from the bytes of a text, by their line breaks alone. It speaks about the
characters all the same, because the byte of a line break stands in the form of no other character.
Main statements:

* `toUTF8_toList`: the bytes of a text are the forms of its characters, one behind the other;
* `count_lineBreak`: a text has as many line breaks as its form has bytes of a line break.
-/

namespace TestScout.ByteOrder

/-- The list made byte by byte holds the bytes of the array from there on. -/
theorem toList_loop (bytes : ByteArray) (i : Nat) (found : List UInt8) :
    ByteArray.toList.loop bytes i found = found.reverse ++ bytes.data.toList.drop i := by
  rw [ByteArray.toList.loop]
  split
  · rename_i hi
    have hlength : i < bytes.data.toList.length := hi
    have hbyte : bytes.get! i = bytes.data.toList[i] := by
      show bytes.data[i]! = bytes.data.toList[i]
      rw [getElem!_pos bytes.data i hi, Array.getElem_toList]
    rw [toList_loop bytes (i + 1), hbyte, List.reverse_cons, List.append_assoc,
      List.singleton_append, List.getElem_cons_drop]
  · rename_i hi
    have hlength : bytes.data.toList.length ≤ i := Nat.le_of_not_lt hi
    rw [List.drop_eq_nil_of_le hlength, List.append_nil]
termination_by bytes.size - i

/-- **The bytes of a text are the forms of its characters.** -/
theorem toUTF8_toList (text : String) :
    text.toUTF8.toList = text.toList.flatMap String.utf8EncodeChar := by
  rw [← bytes_eq]
  exact toList_loop text.toUTF8 0 []

/-- The byte of a line break stands in the form of a line break only. -/
theorem count_encode (c : Char) :
    (String.utf8EncodeChar c).count 10 = if c = '\n' then 1 else 0 := by
  have hbyte : ∀ n < 256, UInt8.ofNat n = 10 ↔ n = 10 := fun n hn => ofNat_inj_iff hn (by decide)
  have hchar : c = '\n' ↔ c.val.toNat = 10 := by
    rw [← Char.val_inj, ← UInt32.toNat_inj]
    rfl
  have hmax : c.val.toNat < 0x110000 := by
    have hvalid := c.valid
    unfold UInt32.isValidChar Nat.isValidChar at hvalid
    omega
  simp only [hchar]
  generalize hv : c.val.toNat = v at hmax
  unfold String.utf8EncodeChar
  simp only [hv]
  -- A form of several bytes is of a larger character, and none of its bytes is below 128.
  by_cases hten : v = 10
  · rw [hten]
    rfl
  · split_ifs <;>
      simp (disch := omega) only [List.count_cons, List.count_nil, beq_iff_eq, hbyte, if_neg]

/-- **A text has as many line breaks as its form has bytes of a line break.** -/
theorem count_lineBreak (text : List Char) :
    (text.flatMap String.utf8EncodeChar).count 10 = text.count '\n' := by
  induction text with
  | nil => rfl
  | cons c rest ih =>
    rw [List.flatMap_cons, List.count_append, ih, count_encode, List.count_cons, Nat.add_comm]
    simp only [beq_iff_eq]

end TestScout.ByteOrder

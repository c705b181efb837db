/-!
# Faults in UTF-8

Bytes are read by a machine with eight states: one between characters, and seven in which bytes are
owed, each byte from a range of its own. A fault is the first character that the machine cannot
complete; it is told by the offset at which that character starts and by how many bytes were read
of it, or that the bytes end inside it.
-/

namespace TestScout.Utf8

/-! ## 1. The machine -/

/-- What the machine expects: how many more bytes belong to the character, and the range of the
    next one. -/
structure State where
  owed : Nat
  low : UInt8
  high : UInt8
deriving DecidableEq, Repr

/-- Between characters. -/
def State.start : State := ⟨0, 0, 0⟩

/-- The state behind the first byte of a character. -/
def first (byte : UInt8) : Option State :=
  if byte ≤ 0x7F then some .start
  else if byte < 0xC2 then none
  else if byte ≤ 0xDF then some ⟨1, 0x80, 0xBF⟩
  else if byte = 0xE0 then some ⟨2, 0xA0, 0xBF⟩
  else if byte = 0xED then some ⟨2, 0x80, 0x9F⟩
  else if byte ≤ 0xEF then some ⟨2, 0x80, 0xBF⟩
  else if byte = 0xF0 then some ⟨3, 0x90, 0xBF⟩
  else if byte ≤ 0xF3 then some ⟨3, 0x80, 0xBF⟩
  else if byte = 0xF4 then some ⟨3, 0x80, 0x8F⟩
  else none

/-- The state behind one more byte; none where the byte cannot stand. -/
def step (state : State) (byte : UInt8) : Option State :=
  match state.owed with
  | 0 => first byte
  | owed + 1 =>
    if state.low ≤ byte ∧ byte ≤ state.high then
      if owed = 0 then some .start else some ⟨owed, 0x80, 0xBF⟩
    else none

/-! ## 2. Faults -/

/-- Where the bytes stop being UTF-8. -/
structure Fault where
  /-- The offset of the character that is no character. -/
  offset : Nat
  /-- How many bytes of it were read; none if the bytes end inside it. -/
  length : Option Nat
deriving DecidableEq, Repr

/-- The wording of a fault. -/
def Fault.message (fault : Fault) : String :=
  match fault.length with
  | some n =>
    "invalid utf-8 sequence of " ++ toString n ++ " bytes from index " ++ toString fault.offset
  | none => "incomplete utf-8 byte sequence from index " ++ toString fault.offset

/-- The first fault, `offset` being the offset of the current character and `read` the number of
    its bytes already read. -/
def faultFrom (state : State) (offset read : Nat) : List UInt8 → Option Fault
  | [] => if state.owed = 0 then none else some ⟨offset, none⟩
  | byte :: rest =>
    match step state byte with
    | none => some ⟨offset, some (max read 1)⟩
    | some next =>
      if next.owed = 0 then faultFrom next (offset + read + 1) 0 rest
      else faultFrom next offset (read + 1) rest

/-- The first fault of a sequence of bytes. -/
def fault? (bytes : List UInt8) : Option Fault :=
  faultFrom .start 0 0 bytes

/-! ## 3. Reading in spite of faults -/

/-- The text of bytes, with a replacement character for each fault. The number bounds how many
    faults are replaced. -/
def lossy : Nat → ByteArray → String
  | 0, _ => ""
  | n + 1, bytes =>
    match String.fromUTF8? bytes with
    | some text => text
    | none =>
      match fault? bytes.toList with
      | none => ""
      | some fault =>
        let good := (String.fromUTF8? (bytes.extract 0 fault.offset)).getD ""
        match fault.length with
        | none => good ++ "\ufffd"
        | some length =>
          good ++ "\ufffd" ++ lossy n (bytes.extract (fault.offset + length) bytes.size)

/-- The text of bytes, with a replacement character for each fault. -/
def decodeLossy (bytes : ByteArray) : String :=
  lossy (bytes.size + 1) bytes

/-- **The form of a text is read as the text.** -/
theorem fromUTF8?_toUTF8 (text : String) : String.fromUTF8? text.toUTF8 = some text := by
  unfold String.fromUTF8?
  rw [String.toUTF8_eq_toByteArray, dif_pos text.isValidUTF8]
  rfl

end TestScout.Utf8

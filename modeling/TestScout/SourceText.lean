import TestScout.FileTree.Basic
import TestScout.Text.Utf8

/-!
# Reading sources

A source is read whole and has to be UTF-8. The error tells at which step reading failed. Files
above a size are checked in place, so that the error tells the offset of the fault as well.
-/

namespace TestScout

/-! ## 1. What can go wrong -/

/-- Why a file has no text. -/
inductive ContentError where
  /-- The path denotes no file. -/
  | file (cause : FileError)
  /-- The bytes are not UTF-8. -/
  | notText
deriving DecidableEq, Repr

/-- The wording of an error. -/
def ContentError.message : ContentError → String
  | .file cause => cause.message
  | .notText => "stream did not contain valid UTF-8"

/-- Why a source cannot be read. -/
inductive ReadError where
  /-- The path denotes nothing. -/
  | metadata (path : Path) (cause : FileError)
  /-- What the path denotes has no text. -/
  | contents (path : Path) (cause : ContentError)
  /-- A large file is not UTF-8. -/
  | faultAt (fault : Utf8.Fault)
deriving DecidableEq, Repr

/-- The wording of an error. -/
def ReadError.message : ReadError → String
  | .metadata path cause => "Failed to read metadata for " ++ path.text ++ ": " ++ cause.message
  | .contents path cause => "Failed to read file " ++ path.text ++ ": " ++ cause.message
  | .faultAt fault => "source file is not valid UTF-8: " ++ fault.message

/-! ## 2. Reading -/

namespace SourceText

/-- The size in bytes above which a file is checked in place. -/
def largeSize : Nat := 1024 * 1024

/-- The text of a file's bytes. -/
def decode (path : Path) (bytes : ByteArray) : Except ReadError String :=
  match String.fromUTF8? bytes with
  | some text => .ok text
  | none =>
    match if largeSize < bytes.size then Utf8.fault? bytes.toList else none with
    | some fault => .error (.faultAt fault)
    | none => .error (.contents path .notText)

/-- The text of the source at a path. -/
def read (tree : FileTree) (path : Path) : Except ReadError String :=
  match tree.stat path with
  | .error cause => .error (.metadata path cause)
  | .ok (.file bytes) => decode path bytes
  | .ok _ => .error (.contents path (.file .isDirectory))

/-- The text of any other file. -/
def readPlain (tree : FileTree) (path : Path) : Except ContentError String :=
  match tree.bytes path with
  | .error cause => .error (.file cause)
  | .ok bytes =>
    match String.fromUTF8? bytes with
    | some text => .ok text
    | none => .error .notText

/-- **A text that was saved is read back.** -/
theorem decode_toUTF8 (path : Path) (text : String) : decode path text.toUTF8 = .ok text := by
  simp only [decode]
  rw [Utf8.fromUTF8?_toUTF8]

end SourceText

end TestScout

import TestScout.Text.Printable

/-!
# Quoted text

Messages show a text or a character they complain about in quotes. A quote, a backslash and the
usual control characters have short escapes; any other character that prints nothing, or that
attaches to the character before it, is written by its code point in hexadecimal.
-/

namespace TestScout.Quoted

/-- The escape `\u` with the code point in braces. -/
def codePoint (c : Char) : List Char :=
  ['\\', 'u', '\x7b'] ++ Nat.toDigits 16 c.toNat ++ ['\x7d']

/-- One character inside the given kind of quotes. -/
def escape (quote : Char) (c : Char) : List Char :=
  if c = '\x00' then ['\\', '0']
  else if c = '\t' then ['\\', 't']
  else if c = '\r' then ['\\', 'r']
  else if c = '\n' then ['\\', 'n']
  else if c = '\\' then ['\\', '\\']
  else if c = quote then ['\\', quote]
  else if isExtending c || !isPrintable c then codePoint c
  else [c]

/-- A text in double quotes. -/
def text (s : List Char) : String :=
  String.ofList ('"' :: s.flatMap (escape '"') ++ ['"'])

/-- A character in single quotes. -/
def char (c : Char) : String :=
  String.ofList ('\'' :: escape '\'' c ++ ['\''])

end TestScout.Quoted

import TestScout.Toml.Value

/-!
# Numbers and moments of TOML

What is not quoted is a flag, a number or a moment. Single underscores may stand between the digits
of a number. A whole number has to fit into 64 bits with a sign.
-/

namespace TestScout.Toml

/-! ## 1. Whole numbers -/

/-- Digits without the underscores between them; none if an underscore stands anywhere else. -/
def plainDigits? (isDigit : Char → Bool) (text : List Char) : Option (List Char) :=
  let pieces := text.splitOn '_'
  if pieces.all fun piece => piece ≠ [] ∧ piece.all isDigit then some pieces.flatten else none

/-- Digits of base ten that do not start with a needless zero. -/
def wholeDigits? (text : List Char) : Option (List Char) :=
  (plainDigits? Char.isDigit text).filter fun digits =>
    digits.length = 1 || digits.head? ≠ some '0'

/-- The value of digits in a base. -/
def digitsIn (base : Nat) (digits : List Char) : Nat :=
  digits.foldl (fun n c =>
    base * n + (if c.isDigit then c.toNat - '0'.toNat else c.toLower.toNat - 'a'.toNat + 10)) 0

/-- The largest whole number. -/
def wholeMax : Nat := Nat.pow 2 63 - 1

/-- The whole number of digits in a base that a letter behind a zero names. -/
def basedWhole? (base : Nat) (isDigit : Char → Bool) (text : List Char) : Option Value :=
  match plainDigits? isDigit text with
  | none => none
  | some digits =>
    if digitsIn base digits ≤ wholeMax then some (.whole (digitsIn base digits)) else none

/-- A digit of base sixteen. -/
def isHexDigit (c : Char) : Bool :=
  c.isDigit || ('a' ≤ c && c ≤ 'f') || ('A' ≤ c && c ≤ 'F')

/-- A whole number. -/
def whole? (text : List Char) : Option Value :=
  match text with
  | '0' :: 'x' :: rest => basedWhole? 16 isHexDigit rest
  | '0' :: 'o' :: rest => basedWhole? 8 (fun c => '0' ≤ c && c ≤ '7') rest
  | '0' :: 'b' :: rest => basedWhole? 2 (fun c => c == '0' || c == '1') rest
  | _ =>
    let signed := Binary64.splitSign text
    match wholeDigits? signed.2 with
    | none => none
    | some digits =>
      let value := digitsIn 10 digits
      if signed.1 then if value ≤ wholeMax + 1 then some (.whole (-(value : Int))) else none
      else if value ≤ wholeMax then some (.whole value)
      else none

/-! ## 2. Numbers with a point -/

/-- An exponent without its underscores. -/
def plainExponent? (text : List Char) : Option (List Char) :=
  match text with
  | [] => some []
  | letter :: '+' :: rest => (plainDigits? Char.isDigit rest).map (letter :: ·)
  | letter :: '-' :: rest => (plainDigits? Char.isDigit rest).map (letter :: '-' :: ·)
  | letter :: rest => (plainDigits? Char.isDigit rest).map (letter :: ·)

/-- A fraction with its point, without its underscores. -/
def plainFraction? (text : List Char) : Option (List Char) :=
  match text with
  | [] => some []
  | '.' :: rest => (plainDigits? Char.isDigit rest).map ('.' :: ·)
  | _ => none

/-- Whether a character starts an exponent. -/
def isExponentMark (c : Char) : Bool :=
  c == 'e' || c == 'E'

/-- A number with a point or an exponent. -/
def real? (text : List Char) : Option Value :=
  let signed := Binary64.splitSign text
  if signed.2 = ['i', 'n', 'f'] then some (.real (.infinite signed.1))
  else if signed.2 = ['n', 'a', 'n'] then some (.real .nan)
  else
    let mantissa := signed.2.takeWhile (!isExponentMark ·)
    let whole := mantissa.takeWhile (· ≠ '.')
    match wholeDigits? whole, plainFraction? (mantissa.drop whole.length),
      plainExponent? (signed.2.drop mantissa.length) with
    | some digits, some fraction, some exponent =>
      if fraction = [] ∧ exponent = [] then none
      else (Binary64.readUnsigned signed.1 (digits ++ fraction ++ exponent)).map .real
    | _, _, _ => none

/-! ## 3. Moments -/

/-- The number that a given count of digits at the start of a text writes, and the text behind. -/
def fixed? (count : Nat) (text : List Char) : Option (Nat × List Char) :=
  let digits := text.take count
  if digits.length = count ∧ digits.all Char.isDigit then
    some (digitsIn 10 digits, text.drop count)
  else none

/-- How many days a month has. -/
def daysIn (year month : Nat) : Nat :=
  if month = 2 then
    if year % 4 = 0 ∧ (year % 100 ≠ 0 ∨ year % 400 = 0) then 29 else 28
  else if month = 4 ∨ month = 6 ∨ month = 9 ∨ month = 11 then 30
  else 31

/-- The text behind a character that has to stand here. -/
def behind? (c : Char) : List Char → Option (List Char)
  | first :: rest => if first = c then some rest else none
  | [] => none

/-- The text behind a date. -/
def date? (text : List Char) : Option (List Char) := do
  let (year, text) ← fixed? 4 text
  let (month, text) ← fixed? 2 (← behind? '-' text)
  let (day, text) ← fixed? 2 (← behind? '-' text)
  if 1 ≤ month ∧ month ≤ 12 ∧ 1 ≤ day ∧ day ≤ daysIn year month then some text else none

/-- The text behind hours and minutes. -/
def hours? (text : List Char) : Option (List Char) := do
  let (hour, text) ← fixed? 2 text
  let (minute, text) ← fixed? 2 (← behind? ':' text)
  if hour ≤ 23 ∧ minute ≤ 59 then some text else none

/-- The text behind a time. -/
def time? (text : List Char) : Option (List Char) := do
  let (second, text) ← fixed? 2 (← behind? ':' (← hours? text))
  if 60 < second then none
  else
    match text with
    | '.' :: rest =>
      if (rest.head?.any Char.isDigit) then some (rest.dropWhile Char.isDigit) else none
    | _ => some text

/-- Whether a text is nothing or a shift from universal time. -/
def isShift (text : List Char) : Bool :=
  match text with
  | [] => true
  | ['Z'] => true
  | ['z'] => true
  | '+' :: rest => hours? rest = some []
  | '-' :: rest => hours? rest = some []
  | _ => false

/-- Whether a text is a date, a time, or both. -/
def isMoment (text : List Char) : Bool :=
  match date? text with
  | some [] => true
  | some (c :: rest) =>
    (c = 'T' || c = 't' || c = ' ') && (time? rest).any isShift
  | none => time? text = some []

/-- A moment. A date and a time have a capital letter between them, and so has universal time behind
    it. -/
def moment? (text : List Char) : Option Value :=
  if isMoment text then
    some (.moment (String.ofList (text.map fun c =>
      if c = ' ' ∨ c = 't' then 'T' else if c = 'z' then 'Z' else c)))
  else none

/-! ## 4. Any scalar -/

/-- The value of a text without quotes. -/
def scalar? (text : List Char) : Option Value :=
  if text = ['t', 'r', 'u', 'e'] then some (.flag true)
  else if text = ['f', 'a', 'l', 's', 'e'] then some (.flag false)
  else ((whole? text).or (real? text)).or (moment? text)

end TestScout.Toml

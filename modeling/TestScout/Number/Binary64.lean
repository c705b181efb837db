import TestScout.Text.Decimal

/-!
# Numbers of 64 bits with a binary point

A number is a whole mantissa of at most 53 bits times a power of two. A decimal text is rounded to
the nearest such number, a tie going to the even mantissa. A number is written with the fewest
digits that are rounded back to it and, of several such texts, the one nearest to it; the point is
always written in its place, never an exponent.
-/

namespace TestScout

/-- A number of 64 bits with a binary point. -/
inductive Binary64 where
  | nan
  | infinite (negative : Bool)
  /-- The mantissa times two to the power. -/
  | finite (negative : Bool) (mantissa : Nat) (power : Int)
deriving DecidableEq, Repr, Inhabited

namespace Binary64

/-! ## 1. From decimals -/

/-- The smallest power of two. -/
def leastPower : Int := -1074

/-- The largest power of two. -/
def greatestPower : Int := 971

/-- `numerator / denominator` rounded to a whole number, a tie to the even one. -/
def divideToEven (numerator denominator : Nat) : Nat :=
  let quotient := numerator / denominator
  let rest := 2 * (numerator % denominator)
  if rest < denominator ∨ (rest = denominator ∧ quotient % 2 = 0) then quotient else quotient + 1

/-- A fraction times two to the power of minus `power`, as a fraction. -/
def scaleDown (numerator denominator : Nat) (power : Int) : Nat × Nat :=
  if 0 ≤ power then (numerator, denominator * Nat.pow 2 power.toNat)
  else (numerator * Nat.pow 2 (-power).toNat, denominator)

/-- The number nearest to a fraction above zero. -/
def ofFraction (negative : Bool) (numerator denominator : Nat) : Binary64 :=
  let low : Int := (numerator.log2 : Int) - denominator.log2 - 53
  let wide := scaleDown numerator denominator low
  let exact := if Nat.pow 2 53 ≤ wide.1 / wide.2 then low + 1 else low
  let power := max exact leastPower
  let scaled := scaleDown numerator denominator power
  let mantissa := divideToEven scaled.1 scaled.2
  let rounded : Nat × Int :=
    if mantissa = Nat.pow 2 53 then (Nat.pow 2 52, power + 1) else (mantissa, power)
  if greatestPower < rounded.2 then .infinite negative
  else .finite negative rounded.1 rounded.2

/-- The number nearest to `digits` times ten to the power. Powers far outside the range are not
    computed. -/
def ofDecimal (negative : Bool) (digits : Nat) (power : Int) : Binary64 :=
  let size : Int := power + (Nat.toDigits 10 digits).length
  if digits = 0 ∨ size < -400 then .finite negative 0 leastPower
  else if 400 < size then .infinite negative
  else if 0 ≤ power then ofFraction negative (digits * Nat.pow 10 power.toNat) 1
  else ofFraction negative digits (Nat.pow 10 (-power).toNat)

/-! ## 2. Reading -/

/-- The value of digits. -/
def digitsValue (digits : List Char) : Nat :=
  digits.foldl (fun n c => 10 * n + (c.toNat - '0'.toNat)) 0

/-- The sign in front of a text and what stands behind it. -/
def splitSign : List Char → Bool × List Char
  | '-' :: rest => (true, rest)
  | '+' :: rest => (false, rest)
  | text => (false, text)

/-- The value of an exponent with its letter; zero for no text. -/
def exponent? : List Char → Option Int
  | [] => some 0
  | c :: rest =>
    if c = 'e' ∨ c = 'E' then
      let signed := splitSign rest
      (Decimal.digits? signed.2).map fun n => if signed.1 then -(n : Int) else n
    else none

/-- The number that a text without a sign writes: digits, perhaps a point among them, and perhaps
    an exponent. -/
def readUnsigned (negative : Bool) (text : List Char) : Option Binary64 :=
  let whole := text.takeWhile Char.isDigit
  let behind := text.dropWhile Char.isDigit
  let parts : List Char × List Char := match behind with
    | '.' :: rest => (rest.takeWhile Char.isDigit, rest.dropWhile Char.isDigit)
    | _ => ([], behind)
  if whole = [] ∧ parts.1 = [] then none
  else
    (exponent? parts.2).map fun exponent =>
      ofDecimal negative (digitsValue (whole ++ parts.1)) (exponent - parts.1.length)

/-- The words for what is no finite number, in lower case. -/
def word? (negative : Bool) (text : List Char) : Option Binary64 :=
  match String.ofList (text.map Char.toLower) with
  | "inf" => some (.infinite negative)
  | "infinity" => some (.infinite negative)
  | "nan" => some .nan
  | _ => none

/-- The number that a text writes. -/
def read? (text : List Char) : Option Binary64 :=
  let signed := splitSign text
  (word? signed.1 signed.2).or (readUnsigned signed.1 signed.2)

/-! ## 3. Writing -/

/-- The ends of the interval of values that are rounded to a number, and the number itself between
    them, all as numerators over one denominator. -/
structure Interval where
  low : Nat
  value : Nat
  high : Nat
  denominator : Nat
  /-- Whether the ends belong to the interval. -/
  closed : Bool

/-- The interval of values that are rounded to a mantissa and a power. -/
def interval (mantissa : Nat) (power : Int) : Interval :=
  let below := if mantissa = Nat.pow 2 52 ∧ leastPower < power then 1 else 2
  let scaled := scaleDown 1 4 (-power)
  { low := (4 * mantissa - below) * scaled.1
    value := 4 * mantissa * scaled.1
    high := (4 * mantissa + 2) * scaled.1
    denominator := scaled.2
    closed := mantissa % 2 = 0 }

/-- Whether a fraction lies in an interval. -/
def Interval.holds (i : Interval) (numerator denominator : Nat) : Bool :=
  let value := numerator * i.denominator
  let low := i.low * denominator
  let high := i.high * denominator
  (low < value || (i.closed && low = value)) && (value < high || (i.closed && value = high))

/-- The multiple of ten to the power `exponent` in an interval that is nearest to its value. -/
def Interval.multiple? (i : Interval) (exponent : Int) : Option Nat :=
  let unit : Nat × Nat :=
    if 0 ≤ exponent then (Nat.pow 10 exponent.toNat, 1) else (1, Nat.pow 10 (-exponent).toNat)
  let below := i.value * unit.2 / (i.denominator * unit.1)
  let rest := i.value * unit.2 % (i.denominator * unit.1)
  let hit (n : Nat) : Bool := i.holds (n * unit.1) unit.2
  if hit below ∧ (2 * rest ≤ i.denominator * unit.1 ∨ !hit (below + 1)) then some below
  else if hit (below + 1) then some (below + 1)
  else none

/-- The powers of ten that are tried, the largest first. -/
def powersOfTen : List Int :=
  (List.range 640).map fun (n : Nat) => (309 : Int) - n

/-- The fewest digits for a mantissa above zero and a power, with the power of ten behind them. -/
def shortest (mantissa : Nat) (power : Int) : Nat × Int :=
  let i := interval mantissa power
  let found := powersOfTen.findSome? fun exponent =>
    (i.multiple? exponent).map fun digits => (digits, exponent)
  found.getD (mantissa, power)

/-- Digits with a point so many places before their end. -/
def placePoint (digits : List Char) (exponent : Int) : List Char :=
  if 0 ≤ exponent then digits ++ List.replicate exponent.toNat '0'
  else
    let places := (-exponent).toNat
    let padded := List.replicate (places + 1 - digits.length) '0' ++ digits
    padded.take (padded.length - places) ++ '.' :: padded.drop (padded.length - places)

/-- The text of a number. -/
def render : Binary64 → String
  | .nan => "NaN"
  | .infinite negative => if negative then "-inf" else "inf"
  | .finite negative mantissa power =>
    let sign := if negative then "-" else ""
    if mantissa = 0 then sign ++ "0"
    else
      let found := shortest mantissa power
      sign ++ String.ofList (placePoint (Nat.toDigits 10 found.1) found.2)

/-! ## 4. Whole numbers -/

/-- The largest whole number that `toNat` answers. -/
def wholeLimit : Nat := Decimal.wordMax

/-- The nearest whole number, a half going up; zero for what lies below zero and for no number, and
    the limit for what lies above it. -/
def toNat : Binary64 → Nat
  | .nan => 0
  | .infinite negative => if negative then 0 else wholeLimit
  | .finite negative mantissa power =>
    if negative then 0
    else
      let scaled := scaleDown mantissa 1 (-power)
      min wholeLimit ((2 * scaled.1 + scaled.2) / (2 * scaled.2))

end Binary64

end TestScout

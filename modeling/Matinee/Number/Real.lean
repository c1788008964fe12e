/-
# `Matinee.Number.Real` — real numbers in text

A real number is written with an optional sign as digits with an optional
point and exponent, or as one of the words `inf`, `infinity` and `nan` in any
case.  Digits may be missing on one side of the point.  The value is the double
nearest to the decimal.
-/
import Matinee.Number.Whole

namespace Matinee.Number

/-- The double nearest to `n · 10 ^ e`.  Far outside the range of doubles the
exponent alone decides, so no huge power is ever formed. -/
def nearestDouble (n : Nat) (e : Int) : Float :=
  if n == 0 then 0.0
  else
    let first : Int := e + (digits n).length
    if 400 < first then 1.0 / 0.0
    else if first < -400 then 0.0
    else Float.ofScientific n (decide (e < 0)) e.natAbs

/-- The value of the digits of an exponent.  They are taken in while they are
worth less than `2 ^ 16`, and those behind are passed over: as an exponent on its
own that is far outside the range of doubles, so it shows only beside tens of
thousands of other digits. -/
def exponentValue (s : List Char) : Nat :=
  s.foldl (fun e c => if e < 2 ^ 16 then e * 10 + (digitValue? c).getD 0 else e) 0

/-- The exponent behind an `e`: digits with an optional sign. -/
def readExponent? : List Char → Option Int
  | '-' :: r => unsigned r |>.map fun n => -(n : Int)
  | '+' :: r => unsigned r |>.map fun n => (n : Int)
  | s => unsigned s |>.map fun n => (n : Int)
where
  unsigned (s : List Char) : Option Nat :=
    if s.isEmpty || !s.all isDigit then none else some (exponentValue s)

/-- More digits than it takes to tell a double, or a point half way between two
doubles, from any other number. -/
def decisiveDigits : Nat := 800

/-- The whole number that some digits are, with the number of digits cut off.
Behind the decisive digits it only matters whether anything follows them: a single
digit stands for all of those. -/
def significand (s : List Char) : Nat × Nat :=
  let solid := s.dropWhile (· == '0')
  match solid.drop decisiveDigits with
  | [] => (ofDigits solid, 0)
  | tail@(_ :: cut) =>
    (ofDigits (solid.take decisiveDigits) * 10 + (if tail.all (· == '0') then 0 else 1), cut.length)

/-- Digits with an optional point and an optional exponent. -/
def readDecimal? (s : List Char) : Option Float :=
  let whole := s.takeWhile isDigit
  let rest := s.dropWhile isDigit
  let (fraction, rest) := match rest with
    | '.' :: r => (r.takeWhile isDigit, r.dropWhile isDigit)
    | r => ([], r)
  if whole.isEmpty && fraction.isEmpty then none
  else
    let exponent := match rest with
      | [] => some 0
      | c :: r => if c == 'e' || c == 'E' then readExponent? r else none
    let (n, cut) := significand (whole ++ fraction)
    exponent.map fun e => nearestDouble n (e - fraction.length + cut)

/-- A number without its sign. -/
def readMagnitude? (s : List Char) : Option Float :=
  let word := s.map Char.toLower
  if word == "inf".toList || word == "infinity".toList then some (1.0 / 0.0)
  else if word == "nan".toList then some (0.0 / 0.0)
  else readDecimal? s

/-- A real number, rounded to the nearest double. -/
def readReal? : List Char → Option Float
  | '-' :: r => (readMagnitude? r).map fun x => -x
  | '+' :: r => readMagnitude? r
  | s => readMagnitude? s

end Matinee.Number

/-
# `Matinee.Number.Shortest` — the fewest digits that read back

Of all decimals that round to a given double the shortest is written, and of
several shortest ones the nearest.  The decimals that round to `m · 2 ^ q` form
an interval around it, with its ends exactly when `m` is even.  For one digit,
two digits, and so on, only the two neighbours of the value on that decimal
grid can lie in the interval before all others do; the first grid with a hit
wins.  Seventeen digits always suffice.
-/
import Matinee.Number.Binary
import Matinee.Number.Whole

namespace Matinee.Number

/-- `d · 10 ^ e`. -/
structure Decimal where
  d : Nat
  e : Int
deriving DecidableEq, Repr

/-- The decimals that round to a double: from `low / den` to `high / den`
around `value / den`. -/
structure Basin where
  value : Nat
  low : Nat
  high : Nat
  den : Nat
  closed : Bool

/-- Half a unit to both sides, a quarter below a power of two, where the
doubles lie twice as close. -/
def basin (m : Nat) (q : Int) : Basin :=
  let (value, den) := ratio (4 * m) (q - 2)
  let (unit, _) := ratio 1 (q - 2)
  let below := if m == 2 ^ 52 && q != -1074 then unit else 2 * unit
  ⟨value, value - below, value + 2 * unit, den, m % 2 == 0⟩

def Basin.holds (b : Basin) (num den : Nat) : Bool :=
  if b.closed then b.low * den ≤ num * b.den && num * b.den ≤ b.high * den
  else b.low * den < num * b.den && num * b.den < b.high * den

/-- `10 ^ e` as a quotient of two whole numbers. -/
def tenPower (e : Int) : Nat × Nat :=
  match e with
  | .ofNat k => (10 ^ k, 1)
  | .negSucc k => (1, 10 ^ (k + 1))

/-- The exponent of the first digit of `num / den`, by way of the number of
bits; `303 / 1000` is a little more than `log₁₀ 2`, so the estimate is mended by
single steps. -/
def leadingExponent (num den : Nat) : Int :=
  let guess : Int := ((Nat.log2 num : Int) - (Nat.log2 den : Int)) * 30103 / 100000
  let reaches (e : Int) : Bool :=
    let (n, d) := tenPower e
    n * den ≤ num * d
  if reaches (guess + 1) then guess + 1
  else if reaches guess then guess
  else if reaches (guess - 1) then guess - 1
  else guess - 2

/-- The neighbour of the value on the grid of multiples of `10 ^ e` that lies in
the basin, the nearer of two, and of two equally near ones the even. -/
def Basin.onGrid (b : Basin) (e : Int) : Option Nat :=
  let (n, d) := tenPower e
  let down := b.value * d / (b.den * n)
  let rest := b.value * d % (b.den * n)
  let hitDown := down != 0 && b.holds (down * n) d
  let hitUp := b.holds ((down + 1) * n) d
  if hitDown && hitUp then
    if 2 * rest < b.den * n then some down
    else if b.den * n < 2 * rest then some (down + 1)
    else some (if down % 2 == 0 then down else down + 1)
  else if hitDown then some down
  else if hitUp then some (down + 1)
  else none

/-- The first grid with a hit, from `count` more digits down. -/
def Basin.search (b : Basin) (e : Int) : Nat → Decimal
  | 0 => ⟨(b.onGrid e).getD 0, e⟩
  | count + 1 =>
    match b.onGrid e with
    | some d => ⟨d, e⟩
    | none => b.search (e - 1) count

/-- A factor of ten belongs into the exponent. -/
def Decimal.normal (x : Decimal) : Decimal := go 400 x
where
  go : Nat → Decimal → Decimal
    | 0, x => x
    | fuel + 1, x => if x.d != 0 && x.d % 10 == 0 then go fuel ⟨x.d / 10, x.e + 1⟩ else x

/-- The shortest decimal that reads back as `m · 2 ^ q`, for `m` above 0. -/
def shortest (m : Nat) (q : Int) : Decimal :=
  let b := basin m q
  (b.search (leadingExponent b.value b.den) 18).normal

/-- How the digits of a double become text: positional between two powers of
ten, else with an exponent. -/
structure FloatFormat where
  /-- The first digit of a positional number stands at least here … -/
  least : Int
  /-- … and before this place. -/
  beyond : Int

/-- `0.00001` and `1e-6`, `1234.0` and `1e+16`. -/
def plainFormat : FloatFormat := ⟨-5, 16⟩

/-- The text of `d · 10 ^ e` behind its sign. -/
def FloatFormat.layout (f : FloatFormat) (x : Decimal) : List Char :=
  let ds := digits x.d
  let first : Int := x.e + ds.length - 1
  if f.least ≤ first && first < f.beyond then
    if 0 ≤ x.e then ds ++ List.replicate x.e.toNat '0' ++ ['.', '0']
    else if 0 ≤ first then
      ds.take (first.toNat + 1) ++ ['.'] ++ ds.drop (first.toNat + 1)
    else ['0', '.'] ++ List.replicate (-first - 1).toNat '0' ++ ds
  else
    let mantissa := match ds with
      | [c] => [c]
      | c :: rest => c :: '.' :: rest
      | [] => []
    let power := if 0 ≤ first then '+' :: digits first.toNat else '-' :: digits (-first).toNat
    mantissa ++ 'e' :: power

/-- The text of a finite double; `none` for the others. -/
def floatText? (f : FloatFormat) (x : Float) : Option (List Char) :=
  match meaning x with
  | .finite ⟨negative, m, q⟩ =>
    let sign := if negative then ['-'] else []
    some (sign ++ if m == 0 then ['0', '.', '0'] else f.layout (shortest m q))
  | _ => none

/-- A tenth, and the least double. -/
example : shortest 0x1999999999999A (-56) = ⟨1, -1⟩ ∧ shortest 1 (-1074) = ⟨5, -324⟩ := by
  decide +kernel

example : plainFormat.layout ⟨1234, -2⟩ = "12.34".toList ∧
    plainFormat.layout ⟨1, 16⟩ = "1e+16".toList ∧
    plainFormat.layout ⟨15, -7⟩ = "1.5e-6".toList := by decide +kernel

end Matinee.Number

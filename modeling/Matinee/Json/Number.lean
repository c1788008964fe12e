/-
# `Matinee.Json.Number` — the value of a JSON number

A number without point and exponent is whole if 64 bits hold it, else real; a
minus zero is real, as no whole number is.

A real number is not rounded from its exact decimal.  At most the leading digits
that fit in 64 bits form a significand, which is then scaled by a power of ten
in double arithmetic; a number whose scaling overflows has no value.  Where the
significand is below `2 ^ 53` and the power below `10 ^ 23` that is the nearest
double, elsewhere it may be a unit off.
-/
import Matinee.Number.Whole

namespace Matinee.Json

/-- The value of a number in a JSON text. -/
inductive Number where
  | whole (n : Int)
  | real (x : Float)
deriving DecidableEq

namespace Number

/-- The parts of a number, each a list of digits. -/
structure Parts where
  negative : Bool
  whole : List Char
  fraction : Option (List Char)
  /-- The sign and the digits behind the `e`. -/
  exponent : Option (Bool × List Char)

/-- A significand of 64 bits with the power of ten that goes with it. -/
structure Scaled where
  significand : Nat
  power : Int

def fits (n : Nat) : Bool := n < 2 ^ 64

/-- Takes digits into the significand while it stays within 64 bits; the others
are left. -/
def absorb (n : Nat) : List Char → Nat × List Char
  | [] => (n, [])
  | c :: r =>
    let n' := n * 10 + (Matinee.Number.digitValue? c).getD 0
    if fits n' then absorb n' r else (n, c :: r)

/-- Whole digits that do not fit count as zeros; digits behind the point that do
not fit are dropped. -/
def scaled (whole fraction : List Char) : Scaled :=
  let (n, left) := absorb 0 whole
  let (m, dropped) := absorb n fraction
  ⟨m, (left.length : Int) - (fraction.length - dropped.length : Nat)⟩

/-- Multiplies by `10 ^ power`; beyond `10 ^ 308` a single double cannot hold
the power, so small numbers are divided in steps. -/
def scale (x : Float) (power : Int) : Nat → Option Float
  | 0 => some x
  | fuel + 1 =>
    if power.natAbs ≤ 308 then
      let p := Float.ofScientific 1 false power.natAbs
      if 0 ≤ power then
        let y := x * p
        if y.isInf then none else some y
      else some (x / p)
    else if x == 0.0 then some x
    else if 0 ≤ power then none
    else scale (x / 1e308) (power + 308) fuel

/-- The value of a significand; five steps take any double to zero. -/
def Scaled.value? (s : Scaled) : Option Float :=
  scale (Float.ofNat s.significand) s.power 5

/-- The largest exponent that is read as a number; a larger one overflows, or
makes zero, whatever it is. -/
def maxExponent : Nat := 2 ^ 31 - 1

/-- The size of a real number. -/
def Parts.magnitude? (p : Parts) : Option Float :=
  let s := scaled p.whole (p.fraction.getD [])
  match p.exponent with
  | none => s.value?
  | some (negative, ds) =>
    match Matinee.Number.readDigits maxExponent 0 ds with
    | .ok e => { s with power := s.power + if negative then -(e : Int) else e }.value?
    | .error _ => if negative || s.significand == 0 then some 0.0 else none

/-- The value of a number, unless it is out of range. -/
def Parts.value? (p : Parts) : Option Number :=
  let real := p.magnitude?.map fun x => Number.real (if p.negative then -x else x)
  let (n, left) := absorb 0 p.whole
  if p.fraction.isSome || p.exponent.isSome || !left.isEmpty then real
  else if p.negative then
    if 1 ≤ n ∧ n ≤ 2 ^ 63 then some (.whole (-n)) else real
  else some (.whole n)

end Number

end Matinee.Json

/-
# `Matinee.Number.Binary` — a double as an exact number

A finite double is `± m · 2 ^ q` with whole `m` and `q`.  The text of a number
is computed from these two in exact arithmetic (`Number.Shortest`,
`Number.Fixed`), so that nothing depends on how a machine prints floats.
-/
import Matinee.Number.Whole

namespace Matinee.Number

/-- The value `m · 2 ^ q`, with its sign kept apart. -/
structure Binary where
  negative : Bool
  m : Nat
  q : Int
deriving DecidableEq, Repr

/-- What a double stands for. -/
inductive Meaning where
  | nan
  | infinite (negative : Bool)
  | finite (value : Binary)
deriving DecidableEq, Repr

/-- Takes the sign, the eleven exponent bits and the 52 fraction bits apart. -/
def meaning (x : Float) : Meaning :=
  let bits : Nat := x.toBits.toNat
  let negative := bits / 2 ^ 63 == 1
  let exponent : Nat := bits / 2 ^ 52 % 2 ^ 11
  let fraction : Nat := bits % 2 ^ 52
  if exponent == 2047 then
    if fraction == 0 then .infinite negative else .nan
  else if exponent == 0 then .finite ⟨negative, fraction, -1074⟩
  else .finite ⟨negative, 2 ^ 52 + fraction, (exponent : Int) - 1075⟩

def isFinite (x : Float) : Bool :=
  match meaning x with
  | .finite _ => true
  | _ => false

/-- `m · 2 ^ q` as a quotient of two whole numbers. -/
def ratio (m : Nat) (q : Int) : Nat × Nat :=
  match q with
  | .ofNat k => (m * 2 ^ k, 1)
  | .negSucc k => (m, 2 ^ (k + 1))

/-- `num / den` rounded to a whole number, a half to the even neighbour. -/
def roundHalfEven (num den : Nat) : Nat :=
  let floor := num / den
  let rest := 2 * (num % den)
  if rest < den then floor
  else if den < rest then floor + 1
  else if floor % 2 == 0 then floor else floor + 1

end Matinee.Number

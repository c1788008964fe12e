/-
# `Matinee.Number.Whole` — whole numbers in text

A bounded whole number is written as ASCII digits behind an optional `+`.
Reading goes from left to right and stops at the first fault, so a text with a
stray letter behind too many digits is too large, not ill-written.
-/

namespace Matinee.Number

/-- `2 ^ k` is the power of the core library, whatever else is imported. -/
@[default_instance 20000]
instance (priority := 2000) corePow : Pow Nat Nat := instPowNat

/-- Why a text is no whole number of the range asked for. -/
inductive WholeFault where
  | empty
  | invalidDigit
  | tooLarge
deriving DecidableEq, Repr

def WholeFault.message : WholeFault → String
  | .empty => "cannot parse integer from empty string"
  | .invalidDigit => "invalid digit found in string"
  | .tooLarge => "number too large to fit in target type"

/-- The value of a decimal digit. -/
def digitValue? (c : Char) : Option Nat :=
  if '0' ≤ c ∧ c ≤ '9' then some (c.toNat - '0'.toNat) else none

def isDigit (c : Char) : Bool := (digitValue? c).isSome

/-- The value of digits, most significant first; other characters count as 0. -/
def ofDigits (s : List Char) : Nat :=
  s.foldl (fun n c => n * 10 + (digitValue? c).getD 0) 0

/-- Reads on behind a prefix of value `n`. -/
def readDigits (max : Nat) (n : Nat) : List Char → Except WholeFault Nat
  | [] => .ok n
  | c :: r =>
    match digitValue? c with
    | none => .error .invalidDigit
    | some d => if n * 10 + d ≤ max then readDigits max (n * 10 + d) r else .error .tooLarge

/-- A whole number from 0 to `max`. -/
def readWhole (max : Nat) : List Char → Except WholeFault Nat
  | [] => .error .empty
  | ['+'] => .error .invalidDigit
  | '+' :: r => readDigits max 0 r
  | s => readDigits max 0 s

def readUInt64? (s : List Char) : Option UInt64 :=
  (readWhole (2 ^ 64 - 1) s).toOption.map UInt64.ofNat

/-- A signed number of 64 bits, with a `+` or `-` in front or no sign. -/
def readInt64? : List Char → Option Int64
  | ['-'] => none
  | '-' :: r => (readDigits (2 ^ 63) 0 r).toOption.map fun n => Int64.ofInt (-n)
  | s => (readWhole (2 ^ 63 - 1) s).toOption.map fun n => Int64.ofInt n

/-- The decimal digits of `n`, at least one. -/
def digits (n : Nat) : List Char := Nat.toDigits 10 n

/-- At least `width` digits, with zeros in front. -/
def paddedDigits (width n : Nat) : List Char :=
  List.replicate (width - (digits n).length) '0' ++ digits n

theorem readDigits_le {max n m : Nat} {s : List Char} (hn : n ≤ max)
    (h : readDigits max n s = .ok m) : m ≤ max := by
  induction s generalizing n with
  | nil => simp only [readDigits, Except.ok.injEq] at h; omega
  | cons c r ih =>
    simp only [readDigits] at h
    split at h
    · cases h
    · split at h
      · exact ih ‹_› h
      · cases h

theorem readWhole_le {max m : Nat} {s : List Char} (h : readWhole max s = .ok m) : m ≤ max := by
  unfold readWhole at h
  split at h
  · cases h
  · cases h
  · exact readDigits_le (Nat.zero_le _) h
  · exact readDigits_le (Nat.zero_le _) h

end Matinee.Number

/-
# `Matinee.Text.Utf8` — octets and characters

A machine that takes one octet at a time (`step`) and yields *symbols*: a
character, or `none` for a longest run of octets that starts a character but
cannot finish it.  Being a fold, decoding does not care how the octets were
cut: `run_append` is the whole story of chunked input.

Two readings share the machine.  `decodeLossy` writes U+FFFD for every broken
run, `decode?` refuses a text that has one.
-/

namespace Matinee.Text.Utf8

/-- A decoded character, or `none` for a broken run of octets. -/
abbrev Symbol := Option Char

/-- Between two characters, or inside one: `owed + 1` octets are missing, the
next must lie between `low` and `high`, and `value` holds the bits so far. -/
inductive State where
  | start
  | inside (owed : Nat) (low high value : Nat)
deriving DecidableEq, Repr

/-- The first octet of a character. -/
def first (b : Nat) : List Symbol × State :=
  if b < 0x80 then ([some (Char.ofNat b)], .start)
  else if 0xC2 ≤ b ∧ b ≤ 0xDF then ([], .inside 0 0x80 0xBF (b - 0xC0))
  else if b = 0xE0 then ([], .inside 1 0xA0 0xBF 0)
  else if b = 0xED then ([], .inside 1 0x80 0x9F 0xD)
  else if 0xE1 ≤ b ∧ b ≤ 0xEF then ([], .inside 1 0x80 0xBF (b - 0xE0))
  else if b = 0xF0 then ([], .inside 2 0x90 0xBF 0)
  else if 0xF1 ≤ b ∧ b ≤ 0xF3 then ([], .inside 2 0x80 0xBF (b - 0xF0))
  else if b = 0xF4 then ([], .inside 2 0x80 0x8F 4)
  else ([none], .start)

/-- One octet: the symbols it settles, and where it leaves the machine.  An
octet that cannot continue the character begun settles a broken run and is then
read as a first octet. -/
def step (st : State) (b : UInt8) : List Symbol × State :=
  match st with
  | .start => first b.toNat
  | .inside owed low high value =>
    if low ≤ b.toNat ∧ b.toNat ≤ high then
      let value' := value * 64 + (b.toNat - 0x80)
      match owed with
      | 0 => ([some (Char.ofNat value')], .start)
      | owed' + 1 => ([], .inside owed' 0x80 0xBF value')
    else
      let (out, st') := first b.toNat
      (none :: out, st')

/-- What the end of the octets settles. -/
def flush : State → List Symbol
  | .start => []
  | .inside .. => [none]

/-- The symbols settled by some octets, newest first, before `out`. -/
def run (st : State) (out : List Symbol) (bytes : List UInt8) : State × List Symbol :=
  bytes.foldl
    (fun (st, out) b =>
      let (new, st') := step st b
      (st', new.reverse ++ out))
    (st, out)

/-- All symbols of a complete sequence of octets. -/
def symbols (bytes : List UInt8) : List Symbol :=
  let (st, out) := run .start [] bytes
  (flush st ++ out).reverse

/-- Every broken run becomes one U+FFFD. -/
def decodeLossy (bytes : List UInt8) : List Char :=
  (symbols bytes).map (·.getD '\uFFFD')

/-- The characters of a well-formed sequence. -/
def decode? (bytes : List UInt8) : Option (List Char) :=
  (symbols bytes).mapM id

def encode (s : List Char) : List UInt8 :=
  s.flatMap String.utf8EncodeChar

/-- Cutting the octets anywhere changes nothing: the second part starts where
the first one left the machine. -/
theorem run_append (st : State) (out : List Symbol) (a b : List UInt8) :
    run st out (a ++ b) = run (run st out a).1 (run st out a).2 b := by
  simp [run, List.foldl_append]

/-- Symbols that are settled already stay below the new ones. -/
theorem run_out (st : State) (out : List Symbol) (bytes : List UInt8) :
    run st out bytes = ((run st [] bytes).1, (run st [] bytes).2 ++ out) := by
  induction bytes generalizing st out with
  | nil => rfl
  | cons b r ih =>
    have h : ∀ o, run st o (b :: r) = run (step st b).2 ((step st b).1.reverse ++ o) r := fun _ => rfl
    rw [h, h, ih, ih (step st b).2 ((step st b).1.reverse ++ [])]
    simp

end Matinee.Text.Utf8

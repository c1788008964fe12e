/-
# `Matinee.Text.LowerCase` — lower-casing a text

Each character is mapped on its own, with two exceptions: `İ` has a two-letter
lower-case form, and a capital sigma at the end of a word becomes `ς`.  The
word test looks past characters that do not matter for case: a sigma is final
when the nearest other character before it is cased and the nearest one after
it is not.
-/
import Matinee.Text.LowerCase.Table
import Matinee.Text.Runs

namespace Matinee.Text.LowerCase

def isCased (c : Char) : Bool := inRuns casedRuns c

def isIgnorable (c : Char) : Bool := inRuns ignorableRuns c

/-- The lower-case form of a character wherever it stands. -/
def lowerChar (c : Char) : List Char :=
  let n := c.toNat
  if n < 0x80 then [c.toLower]
  else if c = '\u0130' then ['i', '\u0307']
  else
    match mappingRuns.find? fun (first, last, stride, _) =>
        first ≤ n && n ≤ last && (n - first) % stride == 0 with
    | some (_, _, _, shift) => [Char.ofNat (n + shift).toNat]
    | none => [c]

/-- The first character that matters for case is cased. -/
def meetsCased (s : List Char) : Bool :=
  match s.dropWhile isIgnorable with
  | c :: _ => isCased c
  | [] => false

/-- A sigma between `before` (nearest first) and `after` ends a word. -/
def isFinalSigma (before after : List Char) : Bool :=
  meetsCased before && !meetsCased after

/-- The lower-case form of `s` behind the characters `before`, nearest first,
with the result so far reversed in `out`. -/
def lowerFrom (before : List Char) (out : List Char) : List Char → List Char
  | [] => out.reverse
  | c :: rest =>
    let low :=
      if c = 'Σ' then (if isFinalSigma before rest then ['ς'] else ['σ'])
      else lowerChar c
    lowerFrom (c :: before) (low.reverse ++ out) rest

end Matinee.Text.LowerCase

namespace Matinee.Text

/-- The lower-case form of a text. -/
def lower (s : List Char) : List Char := LowerCase.lowerFrom [] [] s

end Matinee.Text

/-
# `Matinee.Search.Matching` — finding a local title among remote ones

Local titles end in the year of release, remote ones do not.  The year is taken
off, and of several remote movies the one with the same title is preferred to
one whose title contains the local one or is contained in it, and that to any
other.

The year is looked for at positions in octets, where a text cannot always be cut.
`withoutYear?` has no result if one of its cuts fails, and `isSome_withoutYear?`
says that none of them does: two are next to a parenthesis, and the third, four
octets behind it, is only tried where the fifth is a parenthesis and the last.
-/
import Matinee.Movie.Basic
import Matinee.Number.Whole
import Matinee.Text.Blank
import Matinee.Text.Contains
import Matinee.Text.LowerCase
import Matinee.Text.Offset

namespace Matinee.Search

/-- Four digits and a closing parenthesis.  Any five octets may stand here, so the
parenthesis is looked for before the text is cut in front of it. -/
def isYearTail? (s : List Char) : Option Bool :=
  if Text.octets s == 5 && s.getLast? == some ')' then
    (Text.cutAt? s 4).map fun (front, _) => front.all Number.isDigit
  else some false

/-- The trimmed title, without a year in parentheses at its end, unless a position at
which the text has to be cut lies within a character. -/
def withoutYear? (title : List Char) : Option (List Char) :=
  let text := Text.trimEnd title
  match Text.lastOffsetOf '(' text with
  | none => some (Text.trim title)
  | some opening => do
    let (_, inside) ← Text.cutAt? text (opening + 1)
    if ← isYearTail? inside then
      let (front, _) ← Text.cutAt? text opening
      return Text.trim front
    else return Text.trim title

theorem isYearTail?_of_getLast?_ne {s : List Char} (h : s.getLast? ≠ some ')') :
    isYearTail? s = some false := by
  simp [isYearTail?, h]

theorem isYearTail?_concat (front : List Char) :
    isYearTail? (front ++ [')']) = some (Text.octets front == 4 && front.all Number.isDigit) := by
  have hoctets : Text.octets (front ++ [')']) = Text.octets front + 1 := by
    rw [Text.octets_append]
    rfl
  by_cases hfour : Text.octets front = 4
  · have hcut : Text.cutAt? (front ++ [')']) 4 = some (front, [')']) := by
      rw [← hfour, Text.cutAt?_octets]
    simp [isYearTail?, hoctets, hfour, hcut]
  · simp [isYearTail?, hoctets, hfour]

theorem isSome_isYearTail? (s : List Char) : (isYearTail? s).isSome := by
  by_cases hlast : s.getLast? = some ')'
  · obtain ⟨front, rfl⟩ := List.getLast?_eq_some_iff.mp hlast
    rw [isYearTail?_concat]
    rfl
  · rw [isYearTail?_of_getLast?_ne hlast]
    rfl

/-- Without the parenthesis the position behind four octets may lie within a character. -/
example : Text.octets "199é".toList = 5 ∧ Text.cutAt? "199é".toList 4 = none ∧
    isYearTail? "199é".toList = some false := by decide +kernel

theorem withoutYear?_of_notMem {title : List Char} (h : '(' ∉ Text.trimEnd title) :
    withoutYear? title = some (Text.trim title) := by
  simp only [withoutYear?, Text.lastOffsetOf_of_notMem h]

theorem withoutYear?_of_append {title front inside : List Char}
    (htext : Text.trimEnd title = front ++ '(' :: inside) (hinside : '(' ∉ inside) {year : Bool}
    (hyear : isYearTail? inside = some year) :
    withoutYear? title = some (if year then Text.trim front else Text.trim title) := by
  have hbehind : Text.cutAt? (front ++ '(' :: inside) (Text.octets front + 1) =
      some (front ++ ['('], inside) := by
    refine Text.cutAt?_eq_some_iff.mpr ⟨by simp, ?_⟩
    rw [Text.octets_append]
    rfl
  cases year with
  | false =>
    simp [withoutYear?, htext, Text.lastOffsetOf_append front hinside, hbehind, hyear]
  | true =>
    simp [withoutYear?, htext, Text.lastOffsetOf_append front hinside, hbehind, hyear,
      Text.cutAt?_octets]

/-- Every cut falls between two characters. -/
theorem isSome_withoutYear? (title : List Char) : (withoutYear? title).isSome := by
  by_cases h : '(' ∈ Text.trimEnd title
  · obtain ⟨front, inside, htext, hinside⟩ := Text.exists_append_of_mem h
    obtain ⟨year, hyear⟩ := Option.isSome_iff_exists.mp (isSome_isYearTail? inside)
    rw [withoutYear?_of_append htext hinside hyear]
    rfl
  · rw [withoutYear?_of_notMem h]
    rfl

def withoutYear (title : List Char) : List Char :=
  (withoutYear? title).get (isSome_withoutYear? title)

def stripYear (title : String) : String := String.ofList (withoutYear title.toList)

/-- The form in which titles are matched. -/
def matchingForm (title : String) : List Char := Text.lower (withoutYear title.toList)

/-- One of the two texts contains the other. -/
def overlaps (a b : List Char) : Bool := Text.contains a b || Text.contains b a

/-- The remote movie that a local title most likely means. -/
def bestMatch (title : String) (candidates : List Movie) : Option Movie :=
  let wanted := matchingForm title
  (candidates.find? fun m => matchingForm m.title == wanted)
    <|> (candidates.find? fun m => overlaps (matchingForm m.title) wanted)
    <|> candidates.head?

example : withoutYear " Heat (1995) ".toList = "Heat".toList ∧
    withoutYear "2001 (A Space Odyssey)".toList = "2001 (A Space Odyssey)".toList := by decide +kernel

end Matinee.Search

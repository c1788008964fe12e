/-
# `Matinee.Http.MediaType` — what a content type says

`type/subtype` with parameters behind semicolons.  Case does not matter.  What
follows the last `+` of a subtype is its suffix, so that `problem+json` is told
to be JSON.

Parameters are read by a machine over characters.  A semicolon at the end is
harmless, blanks may stand before a name and behind a quoted value, and only the
last value may be empty; a quoted value takes in at least one character, be it
a quote.
-/
import Matinee.Text.Pieces

namespace Matinee.Http

structure MediaType where
  top : List Char
  sub : List Char
  suffix : Option (List Char)
  params : List (List Char × List Char)
deriving DecidableEq, Repr

namespace MediaType

/-- The characters that names and plain values consist of. -/
def isToken (c : Char) : Bool := c.isAlphanum || "!#$%&'*+-.^_\x60|~".toList.contains c

/-- The characters that may stand in quotes. -/
def isQuotable (c : Char) : Bool := 31 < c.toNat && c.toNat != 127

/-! ## Parameters -/

/-- Where the machine stands; texts are kept in reverse. -/
inductive ParamState where
  | nameStart
  | name (read : List Char)
  | valueStart (name : List Char)
  | value (name read : List Char)
  | quoted (name read : List Char)
  | behindQuoted

/-- A parameter, its name in small letters. -/
def param (name value : List Char) : List Char × List Char :=
  (name.reverse.map Char.toLower, value.reverse)

/-- The state behind one character, and the parameter that it completes. -/
def stepParam : ParamState → Char → Option (ParamState × List (List Char × List Char))
  | .nameStart, c =>
    if c = ' ' then some (.nameStart, []) else if isToken c then some (.name [c], []) else none
  | .name read, c =>
    if isToken c then some (.name (c :: read), [])
    else if c = '=' then some (.valueStart read, []) else none
  | .valueStart name, c =>
    if c = '"' then some (.quoted name [], [])
    else if isToken c then some (.value name [c], []) else none
  | .value name read, c =>
    if isToken c then some (.value name (c :: read), [])
    else if c = ';' then some (.nameStart, [param name read]) else none
  | .quoted name read, c =>
    if c = '"' ∧ read ≠ [] then some (.behindQuoted, [param name read])
    else if isQuotable c then some (.quoted name (c :: read), []) else none
  | .behindQuoted, c =>
    if c = ';' then some (.nameStart, []) else if c = ' ' then some (.behindQuoted, []) else none

/-- The parameter that the end of the text completes. -/
def finishParam : ParamState → Option (List (List Char × List Char))
  | .nameStart | .behindQuoted => some []
  | .valueStart name => some [param name []]
  | .value name read => some [param name read]
  | .name _ | .quoted .. => none

/-- The parameters behind the first semicolon. -/
def readParams (s : List Char) : Option (List (List Char × List Char)) :=
  go .nameStart s
where
  go (st : ParamState) : List Char → Option (List (List Char × List Char))
    | [] => finishParam st
    | c :: rest => do
      let (st', done) ← stepParam st c
      return done ++ (← go st' rest)

/-! ## The whole text -/

/-- The subtype without its suffix, and the suffix; a `+` in front is part of
the subtype. -/
def splitSuffix (sub : List Char) : List Char × Option (List Char) :=
  match Text.lastIndexWhere (· == '+') sub with
  | some 0 | none => (sub, none)
  | some i => (sub.take i, some (sub.drop (i + 1)))

def read? (text : List Char) : Option MediaType := do
  let top := text.takeWhile isToken
  let rest ← match text.dropWhile isToken with
    | '/' :: rest => some rest
    | _ => none
  guard (!top.isEmpty)
  let lower := (rest.takeWhile isToken).map Char.toLower
  let (sub, suffix) := splitSuffix lower
  let params ← match rest.dropWhile isToken with
    | [] => some []
    | ';' :: params => if lower.isEmpty then none else readParams params
    | _ => none
  return ⟨top.map Char.toLower, sub, suffix, params⟩

/-- A JSON text is announced, by subtype or by suffix. -/
def isJson (m : MediaType) : Bool :=
  m.top == "application".toList && (m.sub == "json".toList || m.suffix == some "json".toList)

def param? (m : MediaType) (name : List Char) : Option (List Char) := m.params.lookup name

example : (read? "Application/Problem+JSON; v=1".toList).map isJson = some true := by decide

end MediaType

end Matinee.Http

/-
# `Matinee.Settings.EnvFile` — files of assignments to the environment

A file holds lines `NAME=value`, with `export` in front or not.  Values may be
quoted, and a quoted value may go over several lines.  Outside of single quotes
`$NAME` and `${NAME}` stand for the value that the name has by then.

The environment wins over the file, and an earlier line over a later one.  The
first line that cannot be read ends the file; what stands before it counts.
-/
import Matinee.Settings.Environment
import Matinee.Text.Alphanumeric
import Matinee.Text.Blank
import Matinee.Text.Utf8

namespace Matinee.Settings

namespace EnvFile

/-! ## Lines -/

/-- Where in a line the quoting stands. -/
inductive Quoting where
  | plain
  | blank
  | escape
  | single (escaped : Bool)
  | double (escaped : Bool)
  | comment
deriving DecidableEq, Repr

/-- A comment begins with a `#` behind a blank. -/
def Quoting.step : Quoting → Char → Quoting
  | .comment, _ => .comment
  | .escape, _ => .plain
  | .double true, _ => .double false
  | .double false, c => if c = '\\' then .double true else if c = '"' then .plain else .double false
  | .single true, _ => .single false
  | .single false, c =>
    if c = '\\' then .single true else if c = '\'' then .plain else .single false
  | .blank, c =>
    if c = '#' then .comment else if c = '\\' then .escape
    else if c = '"' then .double false else if c = '\'' then .single false else .plain
  | .plain, c =>
    if Text.isBlank c ∧ c ≠ '\n' ∧ c ≠ '\r' then .blank else if c = '\\' then .escape
    else if c = '"' then .double false else if c = '\'' then .single false else .plain

/-- The lines of a file with the newlines that end them.  A line that is no UTF-8
ends the file, as if it stood behind its end. -/
def physicalLines (content : List UInt8) : List (List Char) :=
  let symbols := Text.Utf8.symbols content
  let pieces := Text.splitAt (· == '\n') ((symbols.takeWhile (·.isSome)).filterMap id)
  let ended := pieces.dropLast.map (· ++ ['\n'])
  if symbols.all (·.isSome) then ended ++ pieces.getLast?.toList.filter (!·.isEmpty) else ended

/-- A line without the newline at its end. -/
def dropNewline (line : List Char) : List Char :=
  if line.getLast? = some '\n' then
    let line := line.dropLast
    if line.getLast? = some '\r' then line.dropLast else line
  else line

/-- The characters in front of the comment. -/
def beforeComment (q : Quoting) : List Char → List Char
  | [] => []
  | c :: rest => if q.step c = .comment then [] else c :: beforeComment (q.step c) rest

/-- Lines that go on in the next one are joined; `read` has been read of a line
already, newest first, and leaves the quoting at `q`.  A line that the end of the
file leaves open is none. -/
def joinLines (read : List Char) (q : Quoting) : List (List Char) → List (List Char)
  | [] => []
  | line :: rest =>
    if read.isEmpty && (Text.trimStart line).head? == some '#' then [] :: joinLines [] .plain rest
    else match line.foldl Quoting.step q with
      | .plain => dropNewline (read.reverse ++ line) :: joinLines [] .plain rest
      | .comment => (read.reverse ++ beforeComment q line) :: joinLines [] .plain rest
      | q' => joinLines (line.reverse ++ read) q' rest

/-! ## Values -/

/-- Where in a value the reading stands; a name is kept newest character first. -/
inductive Mode where
  | text
  | escaped
  | single
  | naming (name : List Char)
  | braced (name : List Char)
  | ended
  | comment

/-- A value read in part; what it comes to is kept newest character first. -/
structure Value where
  mode : Mode
  inDouble : Bool
  written : List Char

/-- What a name that is read in reverse stands for; one that finds nothing stands
for nothing. -/
def valueOf (env : Environment) (name : List Char) : List Char :=
  (env.value? name.reverse).getD []

def Value.write (v : Value) (s : List Char) : Value :=
  { v with mode := .text, written := s.reverse ++ v.written }

/-- What a character stands for behind a backslash. -/
def unescape? (c : Char) : Option Char :=
  if c = 'n' then some '\n' else if "\\'\"$ ".toList.contains c then some c else none

/-- One character of a value; `none` if it cannot stand there. -/
def Value.step (env : Environment) (v : Value) (c : Char) : Option Value :=
  match v.mode with
  | .ended => if c = ' ' ∨ c = '\t' then some v
    else if c = '#' then some { v with mode := .comment } else none
  | .comment => some v
  | .escaped => (unescape? c).map fun c => v.write [c]
  | .single => some (if c = '\'' then { v with mode := .text }
    else { v with written := c :: v.written })
  | .naming name =>
    some <| if Text.isAlphanumeric c then { v with mode := .naming (c :: name) }
      else if c = '\x7b' ∧ name = [] then { v with mode := .braced [] }
      else if c = '$' then { v.write (valueOf env name) with mode := .naming [] }
      else v.write (valueOf env name ++ [c])
  | .braced name => some (if c = '\x7d' then v.write (valueOf env name)
    else { v with mode := .braced (c :: name) })
  | .text =>
    some <| if c = '$' then { v with mode := .naming [] }
      else if c = '\\' then { v with mode := .escaped }
      else if c = '"' then { v with inDouble := !v.inDouble }
      else if v.inDouble then v.write [c]
      else if c = '\'' then { v with mode := .single }
      else if c = ' ' ∨ c = '\t' then { v with mode := .ended }
      else v.write [c]

/-- The whole value; an open quote or brace is a fault. -/
def Value.finish (env : Environment) (v : Value) : Option (List Char) :=
  if v.inDouble then none
  else match v.mode with
    | .single | .braced _ => none
    | .naming name => some (v.write (valueOf env name)).written.reverse
    | _ => some v.written.reverse

def readValue (env : Environment) (s : List Char) : Option (List Char) := do
  (← s.foldlM (Value.step env) ⟨.text, false, []⟩).finish env

/-! ## Assignments -/

def isNameStart (c : Char) : Bool := c.isAlpha || c == '_'

def isNamePart (c : Char) : Bool := c.isAlphanum || c == '_' || c == '.'

/-- A name and what stands behind it and behind blanks. -/
def takeName (s : List Char) : Option (List Char × List Char) :=
  if s.head?.any isNameStart then
    some (s.takeWhile isNamePart, Text.trimStart (s.dropWhile isNamePart))
  else none

def behindEqual : List Char → Option (List Char)
  | '=' :: rest => some rest
  | _ => none

/-- The name that a line assigns to, and the text of the value; `export` is a
name if an equals sign follows it. -/
def assignment? (s : List Char) : Option (List Char × List Char) := do
  let (name, rest) ← takeName s
  match behindEqual rest with
  | some value => return (name, value)
  | none =>
    guard (name == "export".toList)
    let (name, rest) ← takeName rest
    return (name, ← behindEqual rest)

/-- A line without content. -/
def isEmptyLine (s : List Char) : Bool := s.isEmpty || s.head? == some '#'

/-- The environment after a name has been given a value, if it has none. -/
def assign (env : Environment) (name value : List Char) : Environment :=
  if (env.value? name).isSome then env else env.put (String.ofList name) (String.ofList value)

/-- The environment after a line; `none` if the line cannot be read. -/
def readLine (env : Environment) (line : List Char) : Option Environment := do
  let s := Text.trim line
  if isEmptyLine s then return env
  let (name, value) ← assignment? s
  let value := Text.trimStart value
  if isEmptyLine value then return assign env name []
  return assign env name (← readValue env value)

/-- The environment after lines, up to the first that cannot be read. -/
def readLines (env : Environment) : List (List Char) → Environment
  | [] => env
  | line :: rest =>
    match readLine env line with
    | some env' => readLines env' rest
    | none => env

/-- The environment after a file; a byte order mark in front does not count. -/
def load (env : Environment) (content : List UInt8) : Environment :=
  let content := match content with
    | 0xEF :: 0xBB :: 0xBF :: rest => rest
    | s => s
  readLines env (joinLines [] .plain (physicalLines content))

/-- The environment wins over the file; single quotes keep a dollar sign. -/
example : load [("A", "1")]
      (Text.Utf8.encode "A=2\nexport B='x $A' # no\nC=\"x $\x7bA\x7d\"\nD\nE=5".toList) =
    [("A", "1"), ("B", "x $A"), ("C", "x 1")] := by decide +kernel

/-- Octets that are no text end the file where their line begins. -/
example : load [] (Text.Utf8.encode "A=1\nB=".toList ++ [0xFF, 0x0A]) = [("A", "1")] := by
  decide +kernel

end EnvFile

end Matinee.Settings

/-
# `Matinee.Json.Basic` — JSON values and how they are written

A value is written without any spaces.  In a text the quote, the backslash and
the control characters below U+0020 are escaped, everything else stands for
itself.  A real number always shows a point or an exponent, so it is told from
a whole one; a number that is not finite is written `null`.
-/
import Matinee.Number.Shortest

namespace Matinee

inductive Json where
  | null
  | bool (b : Bool)
  | whole (n : Int)
  | real (x : Float)
  | text (s : String)
  | array (items : List Json)
  | object (members : List (String × Json))
deriving Inhabited

namespace Json

def hexDigit (n : Nat) : Char :=
  if n < 10 then Char.ofNat ('0'.toNat + n) else Char.ofNat ('a'.toNat + (n - 10))

/-- The written form of one character of a text. -/
def escapeChar (c : Char) : List Char :=
  if c = '"' then ['\\', '"']
  else if c = '\\' then ['\\', '\\']
  else if c = '\n' then ['\\', 'n']
  else if c = '\r' then ['\\', 'r']
  else if c = '\t' then ['\\', 't']
  else if c = '\x08' then ['\\', 'b']
  else if c = '\x0c' then ['\\', 'f']
  else if c.toNat < 0x20 then
    ['\\', 'u', '0', '0', hexDigit (c.toNat / 16), hexDigit (c.toNat % 16)]
  else [c]

/-- A text between quotes. -/
def quoted (s : String) : List Char :=
  '"' :: (s.toList.flatMap escapeChar ++ ['"'])

def wholeText (n : Int) : List Char :=
  if n < 0 then '-' :: Number.digits n.natAbs else Number.digits n.natAbs

def realText (x : Float) : List Char :=
  (Number.floatText? Number.plainFormat x).getD "null".toList

mutual

/-- The written form of a value. -/
def render : Json → List Char
  | .null => "null".toList
  | .bool true => "true".toList
  | .bool false => "false".toList
  | .whole n => wholeText n
  | .real x => realText x
  | .text s => quoted s
  | .array [] => ['[', ']']
  | .array (v :: rest) => '[' :: (render v ++ renderItems rest)
  | .object [] => ['\x7b', '\x7d']
  | .object ((k, v) :: rest) => '\x7b' :: (quoted k ++ ':' :: (render v ++ renderMembers rest))

/-- The items behind the first one, and the closing bracket. -/
def renderItems : List Json → List Char
  | [] => [']']
  | v :: rest => ',' :: (render v ++ renderItems rest)

/-- The members behind the first one, and the closing brace. -/
def renderMembers : List (String × Json) → List Char
  | [] => ['\x7d']
  | (k, v) :: rest => ',' :: (quoted k ++ ':' :: (render v ++ renderMembers rest))

end

/-- A JSON text. -/
def compact (v : Json) : String := String.ofList v.render

/-- A value that may be missing. -/
def ofOption (f : α → Json) : Option α → Json
  | some a => f a
  | none => .null

end Json

end Matinee

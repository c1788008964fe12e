/-
# `Matinee.Settings.Environment` — the variables of a process

Names and values in the order in which the names came up.  A process keeps them
as texts `NAME=value`, and to ask for a name is to look for a text that begins
with it and an equals sign.  So a name that holds an equals sign may find
something too: `A=B` finds what stands behind `B=` in the value of `A`.
-/
import Matinee.Text.Pieces

namespace Matinee.Settings

/-- Names and values, each name once. -/
abbrev Environment := List (String × String)

namespace Environment

/-- Gives a name a value; one that is there already keeps its place. -/
def put (name value : String) : Environment → Environment
  | [] => [(name, value)]
  | (n, v) :: rest => if n = name then (n, value) :: rest else (n, v) :: put name value rest

/-- The environment in which names have been given values one after another. -/
def ofPairs (pairs : List (String × String)) : Environment :=
  pairs.foldl (fun env (name, value) => env.put name value) []

/-- The text in which a variable is kept. -/
def entryText (name value : String) : List Char := name.toList ++ '=' :: value.toList

/-- What a name finds; the empty name finds nothing. -/
def value? (env : Environment) (name : List Char) : Option (List Char) :=
  if name.isEmpty then none
  else env.findSome? fun (n, v) => Text.dropFront? (name ++ ['=']) (entryText n v)

example : value? [("A", "B=C"), ("AB", "D")] "AB".toList = some "D".toList ∧
    value? [("A", "B=C"), ("AB", "D")] "A=B".toList = some "C".toList := by decide +kernel

end Environment

end Matinee.Settings

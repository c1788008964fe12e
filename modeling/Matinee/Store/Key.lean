/-
# `Matinee.Store.Key` — under which keys things are stored
-/

namespace Matinee.Store

/-- What is stored. -/
inductive Item where
  /-- The list of saved movies, as JSON. -/
  | watchList
  /-- When the account was created, in RFC 3339 form. -/
  | accountDate
deriving DecidableEq, Repr

def Item.name : Item → String
  | .watchList => "userMovieList"
  | .accountDate => "userAccountDate"

/-- The key of an item.  A namespace stands in front with a colon; an empty one
is none. -/
def Item.key (i : Item) (space : Option String) : String :=
  match space with
  | some ns => if ns.isEmpty then i.name else ns ++ ":" ++ i.name
  | none => i.name

example : Item.watchList.key (some "ana") = "ana:userMovieList" ∧
    Item.watchList.key (some "") = "userMovieList" := by decide +kernel

end Matinee.Store

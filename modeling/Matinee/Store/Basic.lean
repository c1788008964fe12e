/-
# `Matinee.Store.Basic` — a store of texts under keys

Three calls make up the whole interface of a store.  What is done with it is a
`Program`: a tree of calls in which each continuation sees the answer of its
call, or the failure.  A program fixes only the order of its own calls; how they
are answered, and what happens between them, is left to whoever runs it.
-/
import Matinee.Failure
import Matinee.Keys

namespace Matinee.Store

/-- A call to a store. -/
inductive Call where
  | get (key : String)
  | set (key value : String)
  /-- Writes only if the key is absent, and tells whether it wrote. -/
  | setIfAbsent (key value : String)
deriving DecidableEq, Repr

/-- What a call is answered with. -/
abbrev Call.Answer : Call → Type
  | .get _ => Option String
  | .set _ _ => Unit
  | .setIfAbsent _ _ => Bool

/-- The texts of a store. -/
abbrev Contents := Std.ExtHashMap String String

/-- A call to a store that does not fail. -/
def answer : (c : Call) → Contents → c.Answer × Contents
  | .get key, s => (s[key]?, s)
  | .set key value, s => ((), s.insert key value)
  | .setIfAbsent key value, s =>
    if key ∈ s then (false, s) else (true, s.insert key value)

/-- A sequence of calls, each chosen by the answers before it. -/
inductive Program (α : Type) : Type where
  | done (a : α)
  | call (c : Call) (next : Except Failure c.Answer → Program α)

namespace Program

def bind : Program α → (α → Program β) → Program β
  | .done a, f => f a
  | .call c next, f => .call c fun r => (next r).bind f

instance : Monad Program where
  pure := .done
  bind := bind

/-- A single call. -/
def ask (c : Call) : ExceptT Failure Program c.Answer := .mk (.call c .done)

/-- Runs a program; `perform` answers its calls. -/
def run {m : Type → Type} [Monad m] (perform : (c : Call) → m (Except Failure c.Answer)) :
    Program α → m α
  | .done a => pure a
  | .call c next => do run perform (next (← perform c))

end Program

/-- Programs that may fail. -/
abbrev Action (α : Type) := ExceptT Failure Program α

def get (key : String) : Action (Option String) := Program.ask (.get key)

def set (key value : String) : Action Unit := Program.ask (.set key value)

def setIfAbsent (key value : String) : Action Bool := Program.ask (.setIfAbsent key value)

/-- Which calls fail, and why; a call that fails writes nothing. -/
abbrev Outage := Call → Option Failure

/-- A call to a store some calls of which fail. -/
def answerUnder (outage : Outage) (c : Call) (s : Contents) : Except Failure c.Answer × Contents :=
  match outage c with
  | some f => (.error f, s)
  | none =>
    let (a, s') := answer c s
    (.ok a, s')

end Matinee.Store

/-
# `Matinee.Store.Remote` — a store on another machine

Each call is one command, a list of words, and one reply.  Texts are kept as
octets there, and a value that is no text fails the call that reads it.  Nothing
can be asked before the connection stands.
-/
import Matinee.Store.Basic
import Matinee.Text.Utf8

namespace Matinee.Store.Remote

/-- What a server replies to a command. -/
inductive Reply where
  | nothing
  | value (bytes : List UInt8)
  | done
  | number (n : Int)
  | refusal (text : String)
deriving DecidableEq, Repr

/-- The words of a call. -/
def command : Call → List String
  | .get key => ["GET", key]
  | .set key value => ["SET", key, value]
  | .setIfAbsent key value => ["SETNX", key, value]

def unexpected : Failure := .store "unexpected reply"

/-- What a reply means to the call that it answers. -/
def interpret : (c : Call) → Reply → Except Failure c.Answer
  | _, .refusal text => .error (.store text)
  | .get _, .nothing => .ok none
  | .get _, .value bytes =>
    match Text.Utf8.decode? bytes with
    | some text => .ok (some (String.ofList text))
    | none => .error (.store "the value is no text")
  | .set .., _ => .ok ()
  | .setIfAbsent .., .number n => .ok (n != 0)
  | _, _ => .error unexpected

/-- A connection takes one command after another. -/
abbrev Connection (m : Type → Type) := List String → m (Except Failure Reply)

variable {m : Type → Type} [Monad m]

/-- A call over a connection. -/
def perform (connection : Connection m) (c : Call) : m (Except Failure c.Answer) := do
  return (← connection (command c)).bind (interpret c)

/-- Connects, and runs a program over the connection. -/
def run (connect : m (Except Failure (Connection m))) (program : Program α) :
    m (Except Failure α) := do
  match ← connect with
  | .error f => return .error f
  | .ok connection => return .ok (← program.run (perform connection))

end Matinee.Store.Remote

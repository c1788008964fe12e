/-
# `Matinee.Json.Decode` — reading typed values from a tree

A decoder walks a tree in the order of the text and stops at the first fault: a
*malformed* spot where the text is no JSON, or a *mismatch* where it is JSON of
the wrong shape.  A scalar has to be complete before its kind is looked at; a
container is refused at its opening bracket.

A record is read from an object, or from an array of its fields in order.  An
object may hold unknown members, whose values only have to be well formed; a
known member must not be repeated.
-/
import Matinee.Json.Tree

namespace Matinee.Json

inductive Fault where
  | malformed
  | mismatch
deriving DecidableEq, Repr

abbrev Decoder (α : Type) := Tree → Except Fault α

namespace Tree

/-- A value that nobody wants may hold anything, if only the grammar is kept.  A
container is closed only where all of its parts are, so no look into it is needed. -/
def wellFormed : Tree → Bool
  | .fault => false
  | .scalar _ => true
  | .array _ closed | .object _ closed => closed

def Scalar.usable : Scalar → Bool
  | .number n => n.isSome
  | .text s => s.isSome
  | _ => true

mutual

/-- A value that is taken in whole before its kind is decided: all its texts and
numbers are usable, and its containers nest at most `room` deep. -/
def usable (room : Nat) : Tree → Bool
  | .fault => false
  | .scalar s => Scalar.usable s
  | .array items closed => room != 0 && usableItems (room - 1) items && closed
  | .object members closed => room != 0 && usableMembers (room - 1) members && closed

def usableItems (room : Nat) : List Tree → Bool
  | [] => true
  | t :: rest => usable room t && usableItems room rest

def usableMembers (room : Nat) : List (Option String × Tree) → Bool
  | [] => true
  | (k, t) :: rest => k.isSome && usable room t && usableMembers room rest

end

/-- Why a value of the wrong kind is refused. -/
def refusal : Tree → Fault
  | .fault | .scalar (.number none) | .scalar (.text none) => .malformed
  | _ => .mismatch

end Tree

namespace Decoder

def require (b : Bool) (f : Fault) : Except Fault Unit :=
  if b then .ok () else .error f

def skip : Decoder Unit := fun t => require t.wellFormed .malformed

def text : Decoder String
  | .scalar (.text (some s)) => .ok s
  | t => .error t.refusal

/-- A whole number from 0 to `max`; a real number is none, even `1.0`. -/
def natUpTo (max : Nat) : Decoder Nat
  | .scalar (.number (some (.whole n))) =>
    if 0 ≤ n ∧ n ≤ max then .ok n.toNat else .error .mismatch
  | t => .error t.refusal

def uint64 : Decoder UInt64 := fun t => UInt64.ofNat <$> natUpTo (2 ^ 64 - 1) t

def uint32 : Decoder UInt32 := fun t => UInt32.ofNat <$> natUpTo (2 ^ 32 - 1) t

/-- A number; a whole one is rounded to the nearest double. -/
def real : Decoder Float
  | .scalar (.number (some (.whole n))) => .ok (Float.ofInt n)
  | .scalar (.number (some (.real x))) => .ok x
  | t => .error t.refusal

def optional (d : Decoder α) : Decoder (Option α)
  | .scalar .null => .ok none
  | t => some <$> d t

def list (d : Decoder α) : Decoder (List α)
  | .array items closed => do
    let xs ← items.mapM d
    require closed .malformed
    return xs
  | t => .error t.refusal

end Decoder

/-- A field of a record that is read into a draft `σ`.  `needed` fields cannot be
left out of an array. -/
structure RecordField (σ : Type) where
  name : String
  needed : Bool
  read : σ → Tree → Except Fault σ

namespace Decoder

/-- The members of an object, with the names met so far. -/
def members (fields : List (RecordField σ)) (seen : List String) (draft : σ) :
    List (Option String × Tree) → Except Fault σ
  | [] => .ok draft
  | (none, _) :: _ => .error .malformed
  | (some name, value) :: rest =>
    match fields.find? (·.name == name) with
    | none => do
      skip value
      members fields seen draft rest
    | some field => do
      require (!seen.contains name) .mismatch
      members fields (name :: seen) (← field.read draft value) rest

/-- The items of an array, one for each field; `closed` tells whether the end of
the items is the end of the array. -/
def positions (closed : Bool) (draft : σ) : List (RecordField σ) → List Tree → Except Fault σ
  | [], [] => do
    require closed .malformed
    return draft
  | [], _ :: _ => .error .malformed
  | fields, [] => do
    require closed .malformed
    require (fields.all (!·.needed)) .mismatch
    return draft
  | field :: fields, value :: rest => do
    positions closed (← field.read draft value) fields rest

/-- A record; `finish` fails if a member that cannot be missing is. -/
def record (fields : List (RecordField σ)) (blank : σ) (finish : σ → Option α) : Decoder α := fun t => do
  let draft ← match t with
    | .object ms closed => do
      let draft ← members fields [] blank ms
      require closed .malformed
      pure draft
    | .array items closed => positions closed blank fields items
    | t => .error t.refusal
  match finish draft with
  | some a => .ok a
  | none => .error .mismatch

/-- A value and nothing behind it. -/
def whole (d : Decoder α) (doc : Document) : Except Fault α := do
  let a ← d doc.root
  require (!doc.trailing) .malformed
  return a

end Decoder

/-- How deep containers may nest in a text, the outermost included. -/
def nestingLimit : Nat := 127

end Matinee.Json

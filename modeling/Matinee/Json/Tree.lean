/-
# `Matinee.Json.Tree` — what a text holds, as far as it is well formed

A reader of JSON meets the faults of a text in the order in which they stand
there: a member of the wrong kind in front of a missing bracket is a member of
the wrong kind.  So a text is not first checked and then read.  It is first
turned into a tree that keeps all that stands before the first violation of the
grammar, with the containers it leaves open marked as such; the fault is raised
by whoever walks that far.

The tree is built by a machine over tokens (`Builder`), whose state is the stack
of containers that are open.
-/
import Matinee.Json.Scan

namespace Matinee.Json

/-- A value as found in a text.  A container that the text leaves open, or in
which the grammar is violated behind its last part, is not `closed`. -/
inductive Tree where
  | fault
  | scalar (s : Scalar)
  | array (items : List Tree) (closed : Bool)
  | object (members : List (Option String × Tree)) (closed : Bool)
deriving Inhabited

/-- A container that is open, its parts newest first.  An object whose last name
waits for its value has it in `pending`. -/
inductive Frame where
  | array (items : List Tree)
  | object (members : List (Option String × Tree)) (pending : Option (Option String))

/-- What may come next. -/
inductive Expect where
  | value
  | valueOrClose
  | nameOrClose
  | name
  | colon
  | commaOrClose
deriving DecidableEq

inductive Builder where
  | building (frames : List Frame) (expect : Expect)
  | complete (root : Tree) (trailing : Bool)
  | broken (root : Tree)

namespace Builder

def empty : Builder := .building [] .value

/-- A finished value goes into the innermost container. -/
def put (v : Tree) : List Frame → Builder
  | [] => .complete v false
  | .array items :: rest => .building (.array (v :: items) :: rest) .commaOrClose
  | .object members pending :: rest =>
    .building (.object ((pending.getD none, v) :: members) none :: rest) .commaOrClose

/-- The tree of a text that ends, or goes wrong, inside these containers. -/
def abandon (inner : Option Tree) : List Frame → Tree
  | [] => inner.getD .fault
  | .array items :: rest =>
    abandon (some (.array (inner.toList ++ items).reverse false)) rest
  | .object members none :: rest => abandon (some (.object members.reverse false)) rest
  | .object members (some name) :: rest =>
    abandon (some (.object ((name, inner.getD .fault) :: members).reverse false)) rest

/-- One token. -/
def add : Builder → Token → Builder
  | .complete root _, _ => .complete root true
  | .broken root, _ => .broken root
  | .building frames expect, token =>
    match expect, token, frames with
    | .value, .scalar s, _ | .valueOrClose, .scalar s, _ => put (.scalar s) frames
    | .value, .openArray, _ | .valueOrClose, .openArray, _ =>
      .building (.array [] :: frames) .valueOrClose
    | .value, .openObject, _ | .valueOrClose, .openObject, _ =>
      .building (.object [] none :: frames) .nameOrClose
    | .valueOrClose, .closeArray, .array items :: rest
    | .commaOrClose, .closeArray, .array items :: rest => put (.array items.reverse true) rest
    | .nameOrClose, .closeObject, .object members none :: rest
    | .commaOrClose, .closeObject, .object members none :: rest =>
      put (.object members.reverse true) rest
    | .commaOrClose, .comma, .array items :: rest => .building (.array items :: rest) .value
    | .commaOrClose, .comma, .object members none :: rest =>
      .building (.object members none :: rest) .name
    | .name, .scalar (.text s), .object members none :: rest
    | .nameOrClose, .scalar (.text s), .object members none :: rest =>
      .building (.object members (some s) :: rest) .colon
    | .colon, .colon, _ => .building frames .value
    | _, _, _ => .broken (abandon none frames)

end Builder

/-- A text read to its end: its first value, and whether more stands behind
that. -/
structure Document where
  root : Tree
  trailing : Bool

namespace Document

/-- The scanner and the builder side by side. -/
structure State where
  scan : Scan.State
  builder : Builder

def State.start : State := ⟨.between, .empty⟩

def State.step (st : State) (s : Text.Utf8.Symbol) : State :=
  let (scan, tokens) := Scan.step st.scan s
  ⟨scan, tokens.foldl Builder.add st.builder⟩

def State.finish (st : State) : Document :=
  match (Scan.finish st.scan).foldl Builder.add st.builder with
  | .complete root trailing => ⟨root, trailing⟩
  | .broken root => ⟨root, false⟩
  | .building frames _ => ⟨Builder.abandon none frames, false⟩

def ofSymbols (s : List Text.Utf8.Symbol) : Document :=
  (s.foldl State.step .start).finish

def ofText (s : String) : Document := ofSymbols (s.toList.map some)

def ofBytes (bytes : List UInt8) : Document := ofSymbols (Text.Utf8.symbols bytes)

end Document

end Matinee.Json

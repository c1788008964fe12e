/-
# `Matinee.Json.Scan` — from symbols to tokens

A machine that takes one symbol at a time and yields the tokens it settles.  A
symbol is a character, or `none` where the octets of a text are broken; a broken
run is allowed only inside a quoted text, and makes that text unreadable.

Quoted texts and numbers are yielded in every case in which they are well
formed.  Whether their *value* is usable (paired surrogates, unbroken octets, a
number in range) is recorded beside it, as only a reader that wants the value
has to refuse it.
-/
import Matinee.Json.Number
import Matinee.Text.Utf8

namespace Matinee.Json

open Matinee.Text.Utf8 (Symbol)

/-- A value without parts; `none` stands for a value that cannot be used. -/
inductive Scalar where
  | null
  | bool (b : Bool)
  | number (n : Option Number)
  | text (s : Option String)
deriving DecidableEq

inductive Token where
  | openArray
  | closeArray
  | openObject
  | closeObject
  | comma
  | colon
  | scalar (s : Scalar)
  | bad
deriving DecidableEq

namespace Scan

/-- How far a number has been read. -/
inductive Phase where
  | sign
  | zero
  | whole
  | point
  | fraction
  | mark
  | markSign
  | exponent
deriving DecidableEq

/-- A number read in part, its digits newest first. -/
structure Numeral where
  phase : Phase
  negative : Bool
  whole : List Char
  fraction : List Char
  exponentNegative : Bool
  exponent : List Char

/-- What the symbols since a backslash ask for. -/
inductive Escape where
  | none
  | slash
  | hex (left : Nat) (value : Nat)
deriving DecidableEq

/-- A quoted text read in part, its characters newest first.  `high` is a high
surrogate that waits for its low one. -/
structure Quotation where
  out : List Char
  readable : Bool
  high : Option Nat
  escape : Escape

inductive State where
  | between
  | word (rest : List Char) (meaning : Scalar)
  | numeral (n : Numeral)
  | quotation (q : Quotation)
  | stopped

def isSpace (c : Char) : Bool := c == ' ' || c == '\t' || c == '\n' || c == '\r'

def isDigit (c : Char) : Bool := Matinee.Number.isDigit c

/-! ## Numbers -/

/-- A number that could end here. -/
def Numeral.complete (n : Numeral) : Bool :=
  match n.phase with
  | .zero | .whole | .fraction | .exponent => true
  | _ => false

def Numeral.parts (n : Numeral) : Number.Parts where
  negative := n.negative
  whole := n.whole.reverse
  fraction := if n.fraction.isEmpty then none else some n.fraction.reverse
  exponent := if n.exponent.isEmpty then none else some (n.exponentNegative, n.exponent.reverse)

def Numeral.token (n : Numeral) : Token :=
  if n.complete then .scalar (.number n.parts.value?) else .bad

/-- The number with one more character; `none` if that character is not part of
it.  A zero takes no digit behind it: the digit is left, and is then refused. -/
def Numeral.extend (n : Numeral) (c : Char) : Option Numeral :=
  let whole := { n with phase := .whole, whole := c :: n.whole }
  let fraction := { n with phase := .fraction, fraction := c :: n.fraction }
  let exponent := { n with phase := .exponent, exponent := c :: n.exponent }
  match n.phase with
  | .sign =>
    if c == '0' then some { whole with phase := .zero }
    else if isDigit c then some whole
    else none
  | .zero =>
    if c == '.' then some { n with phase := .point }
    else if c == 'e' || c == 'E' then some { n with phase := .mark }
    else none
  | .whole =>
    if isDigit c then some whole
    else if c == '.' then some { n with phase := .point }
    else if c == 'e' || c == 'E' then some { n with phase := .mark }
    else none
  | .point => if isDigit c then some fraction else none
  | .fraction =>
    if isDigit c then some fraction
    else if c == 'e' || c == 'E' then some { n with phase := .mark }
    else none
  | .mark =>
    if c == '+' then some { n with phase := .markSign }
    else if c == '-' then some { n with phase := .markSign, exponentNegative := true }
    else if isDigit c then some exponent
    else none
  | .markSign => if isDigit c then some exponent else none
  | .exponent => if isDigit c then some exponent else none

/-- The digits that may not follow: a zero in front of another digit. -/
def Numeral.refuses (n : Numeral) (c : Char) : Bool :=
  n.phase == .zero && isDigit c

def Numeral.start : Numeral := ⟨.sign, false, [], [], false, []⟩

/-! ## Quoted texts -/

def hexValue? (c : Char) : Option Nat :=
  if '0' ≤ c ∧ c ≤ '9' then some (c.toNat - '0'.toNat)
  else if 'a' ≤ c ∧ c ≤ 'f' then some (c.toNat - 'a'.toNat + 10)
  else if 'A' ≤ c ∧ c ≤ 'F' then some (c.toNat - 'A'.toNat + 10)
  else none

def escaped? (c : Char) : Option Char :=
  if c == '"' || c == '\\' || c == '/' then some c
  else if c == 'b' then some '\x08'
  else if c == 'f' then some '\x0c'
  else if c == 'n' then some '\n'
  else if c == 'r' then some '\r'
  else if c == 't' then some '\t'
  else none

/-- One more character; a surrogate that still waits has lost its partner. -/
def Quotation.push (q : Quotation) (c : Char) : Quotation :=
  { q with out := c :: q.out, readable := q.readable && q.high.isNone, high := none,
           escape := .none }

/-- The unit of a `\u` escape: surrogates go in pairs. -/
def Quotation.pushUnit (q : Quotation) (u : Nat) : Quotation :=
  let q := { q with escape := .none }
  if 0xD800 ≤ u ∧ u ≤ 0xDBFF then
    { q with readable := q.readable && q.high.isNone, high := some u }
  else if 0xDC00 ≤ u ∧ u ≤ 0xDFFF then
    match q.high with
    | some h =>
      { q with out := Char.ofNat (0x10000 + (h - 0xD800) * 0x400 + (u - 0xDC00)) :: q.out,
               high := none }
    | none => { q with readable := false }
  else q.push (Char.ofNat u)

def Quotation.token (q : Quotation) : Token :=
  .scalar (.text (if q.readable && q.high.isNone then some (String.ofList q.out.reverse) else none))

def Quotation.start : Quotation := ⟨[], true, none, .none⟩

/-! ## The machine -/

/-- A character outside of all tokens. -/
def start (c : Char) : State × List Token :=
  if isSpace c then (.between, [])
  else if c == '[' then (.between, [.openArray])
  else if c == ']' then (.between, [.closeArray])
  else if c == '\x7b' then (.between, [.openObject])
  else if c == '\x7d' then (.between, [.closeObject])
  else if c == ',' then (.between, [.comma])
  else if c == ':' then (.between, [.colon])
  else if c == '"' then (.quotation .start, [])
  else if c == 't' then (.word "rue".toList (.bool true), [])
  else if c == 'f' then (.word "alse".toList (.bool false), [])
  else if c == 'n' then (.word "ull".toList .null, [])
  else if c == '-' then (.numeral { Numeral.start with negative := true }, [])
  else
    match Numeral.start.extend c with
    | some n => (.numeral n, [])
    | none => (.stopped, [.bad])

/-- A character inside a quoted text. -/
def quote (q : Quotation) (c : Char) : State × List Token :=
  match q.escape with
  | .none =>
    if c == '"' then (.between, [q.token])
    else if c == '\\' then (.quotation { q with escape := .slash }, [])
    else if c.toNat < 0x20 then (.stopped, [.bad])
    else (.quotation (q.push c), [])
  | .slash =>
    if c == 'u' then (.quotation { q with escape := .hex 4 0 }, [])
    else
      match escaped? c with
      | some e => (.quotation (q.push e), [])
      | none => (.stopped, [.bad])
  | .hex left value =>
    match hexValue? c with
    | none => (.stopped, [.bad])
    | some d =>
      if left ≤ 1 then (.quotation (q.pushUnit (value * 16 + d)), [])
      else (.quotation { q with escape := .hex (left - 1) (value * 16 + d) }, [])

/-- One symbol. -/
def step : State → Symbol → State × List Token
  | .stopped, _ => (.stopped, [])
  | .quotation q, some c => quote q c
  | .quotation q, none =>
    if q.escape = .none then (.quotation { q with readable := false }, [])
    else (.stopped, [.bad])
  | _, none => (.stopped, [.bad])
  | .between, some c => start c
  | .word rest meaning, some c =>
    match rest with
    | r :: rest' =>
      if c == r then
        if rest'.isEmpty then (.between, [.scalar meaning]) else (.word rest' meaning, [])
      else (.stopped, [.bad])
    | [] => (.stopped, [.bad])
  | .numeral n, some c =>
    match n.extend c with
    | some n' => (.numeral n', [])
    | none =>
      if n.complete && !n.refuses c then
        let (st, tokens) := start c
        (st, n.token :: tokens)
      else (.stopped, [.bad])

/-- What the end of the text settles. -/
def finish : State → List Token
  | .between | .stopped => []
  | .numeral n => [n.token]
  | .word .. | .quotation _ => [.bad]

end Scan

end Matinee.Json

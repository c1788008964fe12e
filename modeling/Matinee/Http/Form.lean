/-
# `Matinee.Http.Form` — names and values in a query

The form encoding: pairs `name=value` with `&` between them.  Of the characters
only the safe ones stand for themselves; a blank is written `+`, any other octet
`%` and two hexadecimal digits.

Reading accepts every text.  Empty pairs do not count, a pair without `=` has an
empty value, a `%` without two digits behind it stands for itself, and octets
that are no characters are replaced.
-/
import Matinee.Text.Pieces
import Matinee.Text.Utf8

namespace Matinee.Http

/-- Names and values in the order in which they were given. -/
abbrev Params := List (String × String)

namespace Form

/-- The octets that stand for themselves. -/
def isSafe (b : UInt8) : Bool :=
  let c := Char.ofNat b.toNat
  c.isAlphanum || c == '*' || c == '-' || c == '.' || c == '_'

def upperHexDigit (n : Nat) : Char :=
  if n < 10 then Char.ofNat ('0'.toNat + n) else Char.ofNat ('A'.toNat + (n - 10))

def encodeOctet (b : UInt8) : List Char :=
  if isSafe b then [Char.ofNat b.toNat]
  else if b = 0x20 then ['+']
  else ['%', upperHexDigit (b.toNat / 16), upperHexDigit (b.toNat % 16)]

def encodeText (s : String) : List Char := (Text.Utf8.encode s.toList).flatMap encodeOctet

def encodePair : String × String → List Char
  | (name, value) => encodeText name ++ '=' :: encodeText value

/-- The query that holds some pairs. -/
def encode (params : Params) : List Char := (params.map encodePair).intersperse ['&'] |>.flatten

/-- The value of an octet that is a hexadecimal digit. -/
def hexValue? (b : UInt8) : Option UInt8 :=
  if 0x30 ≤ b ∧ b ≤ 0x39 then some (b - 0x30)
  else if 0x41 ≤ b ∧ b ≤ 0x46 then some (b - 0x37)
  else if 0x61 ≤ b ∧ b ≤ 0x66 then some (b - 0x57)
  else none

/-- Octets behind `%` are put in place of their digits. -/
def percentDecode : List UInt8 → List UInt8
  | 0x25 :: high :: low :: rest =>
    match hexValue? high, hexValue? low with
    | some h, some l => (h * 16 + l) :: percentDecode rest
    | _, _ => 0x25 :: percentDecode (high :: low :: rest)
  | b :: rest => b :: percentDecode rest
  | [] => []

def plusToBlank (c : Char) : Char := if c = '+' then ' ' else c

def decodeText (s : List Char) : String :=
  String.ofList (Text.Utf8.decodeLossy (percentDecode (Text.Utf8.encode (s.map plusToBlank))))

/-- A pair is cut at its first `=`. -/
def decodePair (s : List Char) : String × String :=
  (decodeText (s.takeWhile (· != '=')), decodeText ((s.dropWhile (· != '=')).drop 1))

/-- The pairs of a query. -/
def decode (query : List Char) : Params :=
  ((Text.splitAt (· == '&') query).filter (!·.isEmpty)).map decodePair

example : encode [("query", "a b/ñ"), ("page", "1")] = "query=a+b%2F%C3%B1&page=1".toList := by
  decide +kernel

example : decode "q=%zz+%41&&x".toList = [("q", "%zz A"), ("x", "")] := by decide +kernel

end Form

end Matinee.Http

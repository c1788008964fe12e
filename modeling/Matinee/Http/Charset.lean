/-
# `Matinee.Http.Charset` — the text of a body

A body is UTF-8 unless its content type names another character set or a byte
order mark gives one away; the mark is no part of the text.  What is broken is
replaced by U+FFFD.  The sets that a mark can tell and the usual one of old services
are decoded here; for all others the decoders come from outside.  A name that neither
side knows counts for nothing.
-/
import Matinee.Http.MediaType
import Matinee.Text.Blank
import Matinee.Text.Utf8

namespace Matinee.Http

inductive Charset where
  | utf8
  | utf16 (bigEndian : Bool)
  | windows1252
deriving DecidableEq, Repr

namespace Charset

/-- Decoders of further character sets, by labels in small letters. -/
abbrev Decoders := List Char → Option (List UInt8 → List Char)

/-- The sets that are decoded here, each with all its labels. -/
def labels : List (Charset × List String) := [
  (.utf8, ["unicode-1-1-utf-8", "unicode11utf8", "unicode20utf8", "utf-8", "utf8",
    "x-unicode20utf8"]),
  (.utf16 false, ["csunicode", "iso-10646-ucs-2", "ucs-2", "unicode", "unicodefeff", "utf-16",
    "utf-16le"]),
  (.utf16 true, ["unicodefffe", "utf-16be"]),
  (.windows1252, ["ansi_x3.4-1968", "ascii", "cp1252", "cp819", "csisolatin1", "ibm819",
    "iso-8859-1", "iso-ir-100", "iso8859-1", "iso88591", "iso_8859-1", "iso_8859-1:1987", "l1",
    "latin1", "us-ascii", "windows-1252", "x-cp1252"])]

def isLabelBlank (c : Char) : Bool := [' ', '\t', '\n', '\x0c', '\r'].contains c

/-- Blanks around a label do not count, nor does the case of its letters. -/
def labelForm (label : List Char) : List Char :=
  (Text.dropEndWhile isLabelBlank (label.dropWhile isLabelBlank)).map Char.toLower

/-- The set that a label stands for. -/
def ofLabel? (label : List Char) : Option Charset :=
  (labels.find? fun entry => entry.2.contains (String.ofList (labelForm label))).map (·.1)

/-- No label stands for two sets, and all are written as labels are compared. -/
theorem ofLabel?_of_mem :
    ∀ entry ∈ labels, ∀ name ∈ entry.2, ofLabel? name.toList = some entry.1 := by
  decide +kernel

example : ofLabel? " Latin1".toList = some .windows1252 ∧ ofLabel? "latin-1".toList = none := by
  decide +kernel

/-- The characters of the octets from `0x80` to `0x9F`. -/
def windowsTable : List Nat := [
  0x20AC, 0x81, 0x201A, 0x192, 0x201E, 0x2026, 0x2020, 0x2021,
  0x2C6, 0x2030, 0x160, 0x2039, 0x152, 0x8D, 0x17D, 0x8F,
  0x90, 0x2018, 0x2019, 0x201C, 0x201D, 0x2022, 0x2013, 0x2014,
  0x2DC, 0x2122, 0x161, 0x203A, 0x153, 0x9D, 0x17E, 0x178]

def windowsChar (b : UInt8) : Char :=
  let n := b.toNat
  Char.ofNat (if 0x80 ≤ n ∧ n < 0xA0 then windowsTable.getD (n - 0x80) n else n)

/-- The units of sixteen bits; an octet left over is no unit. -/
def units (bigEndian : Bool) : List UInt8 → List (Option Nat)
  | a :: b :: rest =>
    some (if bigEndian then a.toNat * 256 + b.toNat else b.toNat * 256 + a.toNat) ::
      units bigEndian rest
  | [_] => [none]
  | [] => []

/-- What becomes of the first half of a pair whose second half does not come. -/
def unpaired (high : Option Nat) : List Char := if high.isSome then ['\uFFFD'] else []

/-- The characters of sixteen-bit units behind `high`, the first half of a pair. -/
def fromUnits (high : Option Nat) : List (Option Nat) → List Char
  | [] => unpaired high
  | none :: rest => unpaired high ++ '\uFFFD' :: fromUnits none rest
  | some u :: rest =>
    if 0xD800 ≤ u ∧ u < 0xDC00 then unpaired high ++ fromUnits (some u) rest
    else if 0xDC00 ≤ u ∧ u < 0xE000 then
      (match high with
        | some h => Char.ofNat (0x10000 + (h - 0xD800) * 0x400 + (u - 0xDC00))
        | none => '\uFFFD') :: fromUnits none rest
    else unpaired high ++ Char.ofNat u :: fromUnits none rest

def decode : Charset → List UInt8 → List Char
  | .utf8, bytes => Text.Utf8.decodeLossy bytes
  | .utf16 bigEndian, bytes => fromUnits none (units bigEndian bytes)
  | .windows1252, bytes => bytes.map windowsChar

/-- The set that a byte order mark tells, and the octets behind the mark. -/
def sniff : List UInt8 → Option (Charset × List UInt8)
  | 0xEF :: 0xBB :: 0xBF :: rest => some (.utf8, rest)
  | 0xFF :: 0xFE :: rest => some (.utf16 false, rest)
  | 0xFE :: 0xFF :: rest => some (.utf16 true, rest)
  | _ => none

/-- The decoder that a label stands for. -/
def decoder? (others : Decoders) (label : List Char) : Option (List UInt8 → List Char) :=
  ((ofLabel? label).map decode).or (others (labelForm label))

/-- The text of a body with some content type. -/
def textOf (others : Decoders) (contentType : Option MediaType) (body : List UInt8) : List Char :=
  match sniff body with
  | some (set, rest) => set.decode rest
  | none =>
    let named := contentType.bind fun m => (m.param? "charset".toList).bind (decoder? others)
    named.getD Charset.utf8.decode body

end Charset

end Matinee.Http

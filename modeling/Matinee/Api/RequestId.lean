/-
# `Matinee.Api.RequestId` — the id that a caller gives a request

An id is taken over if it is short and all of it can be seen.
-/
import Matinee.Http.Message
import Matinee.Text.Blank

namespace Matinee.Api.RequestId

/-- The header in which the id comes and goes. -/
def header : String := "x-request-id"

def maxLength : Nat := 64

/-- Printable ASCII without the blank. -/
def isGraphic (c : Char) : Bool := '!' ≤ c && c ≤ '~'

/-- Octets that may be the value of a header at all. -/
def isHeaderValue (value : List UInt8) : Bool :=
  value.all fun b => b == 0x09 || (0x20 ≤ b && b != 0x7F)

/-- The id in a header value. -/
def ofHeader? (value : List UInt8) : Option String := do
  let id := Text.trim (← Http.visibleText? value)
  guard (!id.isEmpty && id.length ≤ maxLength && id.all isGraphic)
  return String.ofList id

end Matinee.Api.RequestId

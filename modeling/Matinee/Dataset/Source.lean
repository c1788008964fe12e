/-
# `Matinee.Dataset.Source` — where the dataset files are

A file is named by a path or by a web address.  It is read whole, as text, or in
chunks of octets; both ways need the same head of a reply first, so an address
that answers with an error status fails before any chunk.
-/
import Matinee.Http.Message

namespace Matinee.Dataset

inductive Location where
  | file (path : String)
  | web (url : String)
deriving DecidableEq, Repr

/-- Text that starts like a web address is one; the scheme is in small letters. -/
def Location.ofText (s : String) : Location :=
  if s.startsWith "http://" || s.startsWith "https://" then .web s else .file s

def Location.text : Location → String
  | .file path => path
  | .web url => url

/-- Chunks of `size` octets, the last one shorter. -/
def chunksOf (size : Nat) (bytes : List UInt8) : List (List UInt8) :=
  if bytes = [] ∨ size = 0 then []
  else bytes.take size :: chunksOf size (bytes.drop size)
termination_by bytes.length
decreasing_by
  rename_i h
  have := List.length_pos_iff.2 fun h' => h (.inl h')
  simp only [List.length_drop]
  omega

/-- The size of the chunks in which a local file is read. -/
def fileChunk : Nat := 64 * 1024

/-- The means of getting at files and addresses. -/
structure Access (m : Type → Type) where
  file : String → m (Except Failure (List UInt8))
  exchange : Http.Exchange m

namespace Access

variable {m : Type → Type} [Monad m] (a : Access m)

/-- The reply to a request for a web address, if it is a good one. -/
def fetch (url : String) : m (Except Failure Http.Reply) := do
  return (← a.exchange.send (.get url [])).bind fun r =>
    if r.isSuccess then .ok r
    else .error (.external (url ++ " returned status " ++ Http.statusText r.status))

/-- The whole text. -/
def readText : Location → m (Except Failure (List Char))
  | .file path => do return (← a.file path).map Text.Utf8.decodeLossy
  | .web url => do return (← a.fetch url).bind (Http.Reply.text a.exchange.decoders)

/-- The chunks of a body; one that breaks off ends with a failure. -/
def bodyChunks (r : Http.Reply) : List (Except Failure (List UInt8)) :=
  (if r.body.isEmpty then [] else [.ok r.body]) ++ if r.cut then [.error Http.Reply.brokenOff] else []

/-- The octets in chunks, as they come in. -/
def readChunks : Location → m (Except Failure (List (Except Failure (List UInt8))))
  | .file path => do return (← a.file path).map fun bytes => (chunksOf fileChunk bytes).map .ok
  | .web url => do return (← a.fetch url).map bodyChunks

end Access

end Matinee.Dataset

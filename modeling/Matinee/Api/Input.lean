/-
# `Matinee.Api.Input` — what a request asks for

Queries, ids in paths, bearer tokens and JSON bodies, each read or rejected.  A
parameter that is known must not be given twice; others do not matter.  Text
behind the JSON value of a body is ignored.
-/
import Matinee.Api.Response
import Matinee.Api.Route
import Matinee.Http.Message
import Matinee.Movie.Json
import Matinee.Number.Whole

namespace Matinee.Api

open Json (Decoder RecordField)

/-! ## Queries -/

/-- The value of a parameter. -/
def param? (params : Http.Params) (name : String) : Except Rejection (Option String) :=
  match params.filter (·.1 == name) with
  | [] => .ok none
  | [(_, value)] => .ok (some value)
  | _ => .error .query

/-- The value of a parameter that is a number. -/
def wholeParam? (params : Http.Params) (name : String) (max : Nat) :
    Except Rejection (Option Nat) := do
  match ← param? params name with
  | none => return none
  | some text =>
    match Number.readWhole max text.toList with
    | .ok n => return some n
    | .error _ => throw .query

/-- A search: its text, and how many movies are wanted. -/
structure SearchQuery where
  text : String
  limit : Option Nat
deriving DecidableEq, Repr

def SearchQuery.read (params : Http.Params) : Except Rejection SearchQuery := do
  return ⟨(← param? params "q").getD "", ← wholeParam? params "limit" (2 ^ 64 - 1)⟩

/-- The page of a list. -/
def readPage (params : Http.Params) : Except Rejection UInt32 := do
  return UInt32.ofNat ((← wholeParam? params "page" (2 ^ 32 - 1)).getD 1)

def defaultCount : Nat := 10

def maxCount : Nat := 100

/-- How many recommendations are wanted. -/
def readCount (params : Http.Params) : Except Rejection Nat := do
  let n := (← wholeParam? params "top_n" (2 ^ 64 - 1)).getD defaultCount
  return min (max n 1) maxCount

/-! ## Paths and headers -/

/-- The id that a segment of a path is. -/
def readId (segment : List Char) : Except Rejection UInt64 :=
  match Text.Utf8.decode? (Http.Form.percentDecode (Text.Utf8.encode segment)) with
  | some text =>
    match Number.readUInt64? text with
    | some id => .ok id
    | none => .error .path
  | none => .error .path

/-- The bearer token of a request. -/
def bearerToken (r : Http.Request) : Except Failure String :=
  let token := do
    let value ← Http.visibleText? (← r.header? "authorization")
    return Text.trim (← Text.dropFront? "Bearer ".toList value)
  match token with
  | some (c :: rest) => .ok (String.ofList (c :: rest))
  | _ => .error (.unauthorized "Missing bearer token")

/-! ## Bodies -/

/-- Larger bodies are not taken. -/
def maxBody : Nat := 2 * 1024 * 1024

/-- The request announces a JSON body. -/
def announcesJson (r : Http.Request) : Bool :=
  (((r.header? "content-type").bind Http.visibleText?).bind Http.MediaType.read?).any
    Http.MediaType.isJson

def readBody (decoder : Decoder α) (r : Http.Request) : Except Rejection α :=
  if !announcesJson r then .error .mediaType
  else if maxBody < r.body.length then .error .tooLarge
  else match decoder (Json.Document.ofBytes r.body).root with
    | .ok a => .ok a
    | .error .malformed => .error .malformed
    | .error .mismatch => .error .mismatch

/-- The text of a live search. -/
def liveQuery : Decoder String :=
  Decoder.record [⟨"query", false, fun _ t => Decoder.text t⟩] "" some

/-- An external id, and the vote that counts if the dataset has no rating. -/
structure Wanted where
  id : UInt64
  vote : Option Float
deriving DecidableEq

def wanted : Decoder Wanted :=
  Decoder.record
    [⟨"id", true, fun d t => do return (some (← Decoder.uint64 t), d.2)⟩,
      ⟨"voteAverage", false, fun d t => do return (d.1, ← Decoder.optional Decoder.real t)⟩]
    ((none, none) : Option UInt64 × Option Float)
    fun d => d.1.map (⟨·, d.2⟩)

/-- The movies whose ratings are wanted. -/
def ratingBatch : Decoder (List Wanted) :=
  Decoder.record
    [⟨"movies", true, fun _ t => do return some (← Decoder.list wanted t)⟩]
    none id

/-- A movie to be saved. -/
def savedMovie : Decoder Movie := Movie.decode 0

end Matinee.Api

/-
# `Matinee.Http.Message` — requests, and replies to them

One form of request for both directions: those that are served and those that
are sent to other services.  A reply may break off; its status is known then,
but its body cannot be had as a whole.
-/
import Matinee.Failure
import Matinee.Http.Charset
import Matinee.Http.Form
import Matinee.Json.Basic

namespace Matinee.Http

structure Request where
  method : String
  /-- The address, with the query. -/
  target : String
  /-- Names in small letters, in the order in which they were given. -/
  headers : List (String × List UInt8)
  body : List UInt8
deriving DecidableEq, Repr

structure Reply where
  status : Nat
  contentType : Option (List Char)
  body : List UInt8
  /-- The body broke off. -/
  cut : Bool
deriving DecidableEq, Repr

/-- A client of other services. -/
structure Exchange (m : Type → Type) where
  /-- Sends a request and waits for the head of the reply. -/
  send : Request → m (Except Failure Reply)
  /-- What it can decode besides the sets of `Charset`. -/
  decoders : Charset.Decoders

/-- The value of a header; of several the first. -/
def Request.header? (r : Request) (name : String) : Option (List UInt8) := r.headers.lookup name

/-- The text of a header value, if it consists of visible ASCII and tabs. -/
def visibleText? (value : List UInt8) : Option (List Char) :=
  if value.all fun b => b == 0x09 || (0x20 ≤ b && b < 0x7F) then
    some (value.map fun b => Char.ofNat b.toNat)
  else none

/-- An address with parameters behind it. -/
def withParams (url : String) (params : Params) : String :=
  if params.isEmpty then url
  else url ++ (if url.contains '?' then "&" else "?") ++ String.ofList (Form.encode params)

/-- The header that carries a bearer token. -/
def bearer (token : String) : String × List UInt8 :=
  ("authorization", Text.Utf8.encode ("Bearer " ++ token).toList)

def Request.get (target : String) (headers : List (String × List UInt8)) : Request :=
  ⟨"GET", target, headers, []⟩

def Request.postJson (target : String) (headers : List (String × List UInt8)) (body : Json) :
    Request :=
  ⟨"POST", target, ("content-type", Text.Utf8.encode "application/json".toList) :: headers,
    Text.Utf8.encode body.render⟩

namespace Reply

def isSuccess (r : Reply) : Bool := 200 ≤ r.status && r.status < 300

def brokenOff : Failure := .transport "the reply broke off"

/-- The text of the body, if all of it came. -/
def text (others : Charset.Decoders) (r : Reply) : Except Failure (List Char) :=
  if r.cut then .error brokenOff
  else .ok (Charset.textOf others (r.contentType.bind MediaType.read?) r.body)

end Reply

/-- The phrases that go with status codes. -/
def reasons : List (Nat × String) := [
  (100, "Continue"), (101, "Switching Protocols"), (102, "Processing"),
  (200, "OK"), (201, "Created"), (202, "Accepted"), (203, "Non Authoritative Information"),
  (204, "No Content"), (205, "Reset Content"), (206, "Partial Content"), (207, "Multi-Status"),
  (208, "Already Reported"), (226, "IM Used"),
  (300, "Multiple Choices"), (301, "Moved Permanently"), (302, "Found"), (303, "See Other"),
  (304, "Not Modified"), (305, "Use Proxy"), (307, "Temporary Redirect"),
  (308, "Permanent Redirect"),
  (400, "Bad Request"), (401, "Unauthorized"), (402, "Payment Required"), (403, "Forbidden"),
  (404, "Not Found"), (405, "Method Not Allowed"), (406, "Not Acceptable"),
  (407, "Proxy Authentication Required"), (408, "Request Timeout"), (409, "Conflict"),
  (410, "Gone"), (411, "Length Required"), (412, "Precondition Failed"),
  (413, "Payload Too Large"), (414, "URI Too Long"), (415, "Unsupported Media Type"),
  (416, "Range Not Satisfiable"), (417, "Expectation Failed"), (418, "I'm a teapot"),
  (421, "Misdirected Request"), (422, "Unprocessable Entity"), (423, "Locked"),
  (424, "Failed Dependency"), (426, "Upgrade Required"), (428, "Precondition Required"),
  (429, "Too Many Requests"), (431, "Request Header Fields Too Large"),
  (451, "Unavailable For Legal Reasons"),
  (500, "Internal Server Error"), (501, "Not Implemented"), (502, "Bad Gateway"),
  (503, "Service Unavailable"), (504, "Gateway Timeout"), (505, "HTTP Version Not Supported"),
  (506, "Variant Also Negotiates"), (507, "Insufficient Storage"), (508, "Loop Detected"),
  (510, "Not Extended"), (511, "Network Authentication Required")]

/-- A status code with its phrase. -/
def statusText (status : Nat) : String :=
  String.ofList (Nat.toDigits 10 status) ++ " " ++
    (reasons.lookup status).getD "<unknown status code>"

example : statusText 404 = "404 Not Found" ∧ statusText 599 = "599 <unknown status code>" := by
  decide +kernel

end Matinee.Http

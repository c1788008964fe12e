/-
# `Matinee.Api.Response` — what a request is answered with

A request can be turned down before anything is done for it, because its form is
wrong: that is a *rejection*, told in a short text.  It can also fail later on;
failures are told as JSON.
-/
import Matinee.Failure
import Matinee.Json.Basic

namespace Matinee.Api

inductive Body where
  | empty
  | json (value : Json)
  | text (s : String)

structure Response where
  status : Nat
  body : Body
  requestId : Option String

namespace Response

def bare (status : Nat) : Response := ⟨status, .empty, none⟩

def ofJson (status : Nat) (value : Json) : Response := ⟨status, .json value, none⟩

def ofFailure (f : Failure) : Response :=
  ofJson f.status (.object [("error", .text f.replyText)])

def withoutBody (r : Response) : Response := { r with body := .empty }

end Response

/-- What is wrong with the form of a request. -/
inductive Rejection where
  | query
  | path
  | mediaType
  | tooLarge
  | malformed
  | mismatch
deriving DecidableEq, Repr

namespace Rejection

def status : Rejection → Nat
  | .query | .path | .malformed => 400
  | .tooLarge => 413
  | .mediaType => 415
  | .mismatch => 422

def notice : Rejection → String
  | .query => "The query cannot be read."
  | .path => "The path cannot be read."
  | .mediaType => "The body has to be announced as JSON."
  | .tooLarge => "The body is too large."
  | .malformed => "The body is no JSON."
  | .mismatch => "The body does not have the form that is asked for."

end Rejection

/-- Why a request is not carried out. -/
inductive Refusal where
  | rejected (r : Rejection)
  | failed (f : Failure)
deriving DecidableEq, Repr

def Refusal.response : Refusal → Response
  | .rejected r => ⟨r.status, .text r.notice, none⟩
  | .failed f => .ofFailure f

end Matinee.Api

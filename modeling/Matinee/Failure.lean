/-
# `Matinee.Failure` — what can go wrong while a request is served

One type for every service.  Text that does not parse is no failure anywhere in
this library: rows are skipped, and a broken stored value or reply becomes one
of the causes below.
-/

namespace Matinee

/-- The cause of a failed operation, with the words of whoever reported it. -/
inductive Failure where
  | store (detail : String)
  | transport (detail : String)
  | io (detail : String)
  | notFound (what : String)
  | invalidInput (what : String)
  | unauthorized (what : String)
  | external (what : String)
  | internal (what : String)
deriving DecidableEq, Repr

namespace Failure

/-- The text shown to people. -/
def message : Failure → String
  | .store d => "Store error: " ++ d
  | .transport d => "HTTP client error: " ++ d
  | .io d => "I/O error: " ++ d
  | .notFound w => "Not found: " ++ w
  | .invalidInput w => "Invalid input: " ++ w
  | .unauthorized w => "Unauthorized: " ++ w
  | .external w => "External API error: " ++ w
  | .internal w => "Internal server error: " ++ w

/-- The status of a reply that reports the failure. -/
def status : Failure → Nat
  | .notFound _ => 404
  | .invalidInput _ => 400
  | .unauthorized _ => 401
  | .external _ | .transport _ => 502
  | .store _ | .io _ | .internal _ => 500

/-- What a reply tells the caller: faults of the caller and of other services are
told without the heading. -/
def replyText : Failure → String
  | .notFound w | .invalidInput w | .unauthorized w | .external w => w
  | f => f.message

end Failure

end Matinee

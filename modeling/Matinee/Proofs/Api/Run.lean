/-
# `Matinee.Proofs.Api.Run` — how a request runs

A request first gets its id and is then answered with the end of the work that its method
and its address lead to, whatever the world outside of the service is (`handle_of_work`).
-/
import Matinee.Api.Handle

namespace Matinee.Api

variable {m : Type → Type} [Monad m] [LawfulMonad m] (w : World m)

/-- The response in which some work ends. -/
def ending : Except Refusal Response → Response
  | .ok response => response
  | .error refusal => refusal.response

/-- The id of the response to a request. -/
def idFor (r : Http.Request) : m String :=
  match (r.header? RequestId.header).bind RequestId.ofHeader? with
  | some id => pure id
  | none => w.freshId

theorem respond_of_work {r : Http.Request} {resource : Resource} {work : Handler m Response}
    (hhead : r.method ≠ "HEAD")
    (hpath : Resource.ofPath? (splitTarget r.target).1 = some resource)
    (hwork : work? w r (Http.Form.decode (splitTarget r.target).2) resource r.method =
      some work) :
    respond w r = ending <$> work.run := by
  unfold respond
  simp only [hpath, hhead, if_false, hwork]
  rw [map_eq_pure_bind]
  rfl

/-- But for its id, the response is found by `respond`. -/
theorem handle_eq {r : Http.Request} (hr : r.method ≠ "OPTIONS") :
    handle w r = StateT.lift (idFor w r) >>= fun id =>
      (fun response => { response with requestId := some id }) <$> respond w r := by
  unfold handle idFor
  rw [if_neg hr]
  cases (r.header? RequestId.header).bind RequestId.ofHeader? with
  | some id =>
      have hlift : (StateT.lift (pure id) : StateT Service m String) = pure id := by
        funext s
        simp only [StateT.lift, pure_bind]
        rfl
      simp only [hlift, pure_bind, map_eq_pure_bind]
  | none =>
      simp only [map_eq_pure_bind]
      rfl

theorem handle_of_work {r : Http.Request} {resource : Resource} {work : Handler m Response}
    (hget : r.method = "GET") (hpath : Resource.ofPath? (splitTarget r.target).1 = some resource)
    (hwork : work? w r (Http.Form.decode (splitTarget r.target).2) resource "GET" = some work)
    (s : Service) :
    (handle w r).run s = do
      let id ← idFor w r
      let found ← work.run.run s
      return ({ ending found.1 with requestId := some id }, found.2) := by
  have hhead : r.method ≠ "HEAD" := by rw [hget]; decide
  rw [handle_eq w (by rw [hget]; decide), respond_of_work w hhead hpath (hget ▸ hwork)]
  simp only [StateT.run_bind, StateT.run_lift, StateT.run_pure, bind_assoc, pure_bind,
    map_eq_pure_bind]

end Matinee.Api

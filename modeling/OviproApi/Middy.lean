import Mathlib.Data.List.Basic

/-! Middleware around a handler: hooks that run before it, after it and when
something was thrown, on one request that all of them share. -/

namespace Middy

structure Request (Event Response Failure : Type) where
  event : Event
  response : Option Response
  error : Option Failure

/-- A hook leaves a request behind, also where it throws. It may return a
response, which ends the phase early. -/
abbrev Hook (Event Response Failure : Type) :=
  Request Event Response Failure →
    Request Event Response Failure × Except Failure (Option Response)

structure Middleware (Event Response Failure : Type) where
  before : Hook Event Response Failure
  after : Hook Event Response Failure
  onError : Hook Event Response Failure

section
variable {Event Response Failure : Type}

def Hook.skip : Hook Event Response Failure := fun request => (request, .ok none)

def runMiddlewares : List (Hook Event Response Failure) → Request Event Response Failure →
    Request Event Response Failure × Except Failure Unit
  | [], request => (request, .ok ())
  | nextMiddleware :: rest, request =>
    match nextMiddleware request with
    | (request, .error e) => (request, .error e)
    | (request, .ok (some response)) => ({ request with response := some response }, .ok ())
    | (request, .ok none) => runMiddlewares rest request

/-- Everything up to the first throw: the hooks before in the order in which
they were attached, the handler unless one of them responded, and the hooks
after in the reverse order. -/
def attempt (middlewares : List (Middleware Event Response Failure))
    (baseHandler : Event → Except Failure Response) (request : Request Event Response Failure) :
    Request Event Response Failure × Except Failure Unit :=
  match runMiddlewares (middlewares.map (·.before)) request with
  | (request, .error e) => (request, .error e)
  | (request, .ok ()) =>
    if request.response.isSome then (request, .ok ())
    else
      match baseHandler request.event with
      | .error e => (request, .error e)
      | .ok response =>
        runMiddlewares (middlewares.reverse.map (·.after)) { request with response := some response }

/-- The promise of the wrapped handler. The hooks on an error start without a
response, and without one at their end the error is thrown again. -/
def run (middlewares : List (Middleware Event Response Failure))
    (baseHandler : Event → Except Failure Response) (event : Event) :
    Except Failure (Option Response) :=
  match attempt middlewares baseHandler ⟨event, none, none⟩ with
  | (request, .ok ()) => .ok request.response
  | (request, .error e) =>
    let request := { request with response := none, error := some e }
    match runMiddlewares (middlewares.map (·.onError)) request with
    | (_, .error e') => .error e'
    | (request, .ok ()) =>
      match request.response with
      | none => .error e
      | some response => .ok (some response)

theorem runMiddlewares_of_pass {hook : Hook Event Response Failure}
    {hooks : List (Hook Event Response Failure)} {request request' : Request Event Response Failure}
    (h : hook request = (request', .ok none)) :
    runMiddlewares (hook :: hooks) request = runMiddlewares hooks request' := by
  rw [runMiddlewares, h]

theorem runMiddlewares_of_throw {hook : Hook Event Response Failure}
    {hooks : List (Hook Event Response Failure)} {request request' : Request Event Response Failure}
    {e : Failure} (h : hook request = (request', .error e)) :
    runMiddlewares (hook :: hooks) request = (request', .error e) := by
  rw [runMiddlewares, h]

theorem runMiddlewares_skip (hooks : List (Hook Event Response Failure))
    (request : Request Event Response Failure) :
    runMiddlewares (Hook.skip :: hooks) request = runMiddlewares hooks request :=
  runMiddlewares_of_pass rfl

/-- The request that is left where all hooks passed it on. -/
inductive Passed : List (Hook Event Response Failure) → Request Event Response Failure →
    Request Event Response Failure → Prop
  | nil (request : Request Event Response Failure) : Passed [] request request
  | cons {hook : Hook Event Response Failure} {hooks : List (Hook Event Response Failure)}
      {request request' request'' : Request Event Response Failure}
      (h : hook request = (request', .ok none)) (hrest : Passed hooks request' request'') :
      Passed (hook :: hooks) request request''

/-- A hook that leaves alone whatever reaches it can be inserted. -/
theorem runMiddlewares_insert {pre post : List (Hook Event Response Failure)}
    {hook : Hook Event Response Failure} {request : Request Event Response Failure}
    (h : ∀ request', Passed pre request request' → hook request' = (request', .ok none)) :
    runMiddlewares (pre ++ hook :: post) request = runMiddlewares (pre ++ post) request := by
  induction pre generalizing request with
  | nil => exact runMiddlewares_of_pass (h request (.nil request))
  | cons first pre ih =>
    rw [List.cons_append, List.cons_append, runMiddlewares, runMiddlewares]
    rcases hfirst : first request with ⟨request', outcome⟩
    rcases outcome with e | (_ | response)
    · rfl
    · exact ih fun request'' hpassed => h request'' (.cons hfirst hpassed)
    · rfl

variable {middlewares : List (Middleware Event Response Failure)}
  {baseHandler : Event → Except Failure Response} {event : Event}

theorem run_of_response {request : Request Event Response Failure} {response : Response}
    (h : attempt middlewares baseHandler ⟨event, none, none⟩ = (request, .ok ()))
    (hresponse : request.response = some response) :
    run middlewares baseHandler event = .ok (some response) := by
  rw [run, h]
  exact congrArg Except.ok hresponse

theorem run_of_handled {request request' : Request Event Response Failure} {e : Failure}
    {response : Response}
    (h : attempt middlewares baseHandler ⟨event, none, none⟩ = (request, .error e))
    (hhandled : runMiddlewares (middlewares.map (·.onError))
      { request with response := none, error := some e } = (request', .ok ()))
    (hresponse : request'.response = some response) :
    run middlewares baseHandler event = .ok (some response) := by
  rw [run, h]
  simp only [hhandled, hresponse]

theorem run_of_rethrown {request request' : Request Event Response Failure} {e e' : Failure}
    (h : attempt middlewares baseHandler ⟨event, none, none⟩ = (request, .error e))
    (hthrown : runMiddlewares (middlewares.map (·.onError))
      { request with response := none, error := some e } = (request', .error e')) :
    run middlewares baseHandler event = .error e' := by
  rw [run, h]
  simp only [hthrown]

/-- The requests that reach a middleware between `pre` and `post`, in the phase
after the handler or on an error. -/
inductive Sees (pre post : List (Middleware Event Response Failure))
    (baseHandler : Event → Except Failure Response) (event : Event) :
    Request Event Response Failure → Prop
  | after {request request' : Request Event Response Failure} {response : Response}
      (hbefore : runMiddlewares ((pre ++ post).map (·.before)) ⟨event, none, none⟩ =
        (request, .ok ()))
      (hnone : request.response.isSome = false)
      (hbase : baseHandler request.event = .ok response)
      (hpassed : Passed (post.reverse.map (·.after)) { request with response := some response }
        request') : Sees pre post baseHandler event request'
  | onError {request request' : Request Event Response Failure} {e : Failure}
      (hattempt : attempt (pre ++ post) baseHandler ⟨event, none, none⟩ = (request, .error e))
      (hpassed : Passed (pre.map (·.onError)) { request with response := none, error := some e }
        request') : Sees pre post baseHandler event request'

/-- A middleware that leaves alone every request that it sees does not change
the outcome of the run. -/
theorem run_insert {pre post : List (Middleware Event Response Failure)}
    {middleware : Middleware Event Response Failure} (hskip : middleware.before = Hook.skip)
    (h : ∀ request, Sees pre post baseHandler event request →
      middleware.after request = (request, .ok none) ∧
        middleware.onError request = (request, .ok none)) :
    run (pre ++ middleware :: post) baseHandler event = run (pre ++ post) baseHandler event := by
  have hbefore : runMiddlewares ((pre ++ middleware :: post).map (·.before)) ⟨event, none, none⟩ =
      runMiddlewares ((pre ++ post).map (·.before)) ⟨event, none, none⟩ := by
    rw [List.map_append, List.map_cons, List.map_append, hskip]
    exact runMiddlewares_insert fun request _ => rfl
  have hwith : (pre ++ middleware :: post).reverse.map (·.after) =
      post.reverse.map (·.after) ++ middleware.after :: pre.reverse.map (·.after) := by simp
  have hwithout : (pre ++ post).reverse.map (·.after) =
      post.reverse.map (·.after) ++ pre.reverse.map (·.after) := by simp
  have hattempt : attempt (pre ++ middleware :: post) baseHandler ⟨event, none, none⟩ =
      attempt (pre ++ post) baseHandler ⟨event, none, none⟩ := by
    rw [attempt, attempt, hbefore, hwith, hwithout]
    rcases hphase : runMiddlewares ((pre ++ post).map (·.before)) ⟨event, none, none⟩ with
      ⟨request, e | _⟩
    · simp only [hphase]
    · cases hbase : baseHandler request.event with
      | error e => simp only [hphase, hbase]
      | ok response =>
        simp only [hphase, hbase]
        cases hnone : request.response.isSome with
        | true => rfl
        | false =>
          exact runMiddlewares_insert fun request' hpassed =>
            (h request' (.after hphase hnone hbase hpassed)).1
  rw [run, run, hattempt]
  rcases hphase : attempt (pre ++ post) baseHandler ⟨event, none, none⟩ with ⟨request, e | _⟩
  · have honError : runMiddlewares (pre.map (·.onError) ++ middleware.onError :: post.map (·.onError))
        { request with response := none, error := some e } = _ :=
      runMiddlewares_insert fun request' hpassed => (h request' (.onError hphase hpassed)).2
    simp only [List.map_append, List.map_cons, honError]
  · rfl

end
end Middy

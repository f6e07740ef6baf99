import OviproApi.Middleware

/-! The middleware that logs the response. It works on a copy, whose body it
parses, and so it raises on a text that is not JSON. -/

namespace Ovipro.ResponseLogger
open Ecma ErrorHandling Sample Middleware

inductive LogLevel
  | info
  | error
  deriving DecidableEq, Repr

/-- The copy of the response that is logged. A field that is absent is `none`,
an absent body is `undefined`. -/
structure LoggedResponse where
  statusCode : Option Nat
  headers : Option Headers
  body : Value
  error : Option Thrown

def spread (response : Option APIGatewayProxyResult) : LoggedResponse where
  statusCode := response.bind (·.statusCode)
  headers := response.bind (·.headers)
  body := response.elim .undefined (·.body)
  error := none

def parseResponseBody (response : LoggedResponse) : Except Thrown LoggedResponse :=
  match response.body with
  | .str body => do
    let body ← (Json.parse body).mapError thrownOf
    return { response with body := body }
  | _ => return response

def omitBody (response : LoggedResponse) : LoggedResponse := { response with body := .undefined }

/-- What is logged, unless the body raises before. -/
def logResponseImpl (request : Request) : Except Thrown (LogLevel × LoggedResponse) := do
  let response ← parseResponseBody (spread request.response)
  let response := if response.statusCode = some 200 then omitBody response else response
  let response := if request.error.isSome then { response with error := request.error } else response
  return (if response.statusCode.any (· ≥ 400) then .error else .info, response)

/-- The logger itself neither raises nor changes what it is given. -/
def logHook : Hook := fun request => (request, (logResponseImpl request).map fun _ => none)

def responseLogger : MiddlewareType where
  before := .skip
  after := logHook
  onError := logHook

/-- The hook completes and leaves the request as it was, in both phases, and
the phase goes on as without it. -/
def Transparent (request : Request) : Prop :=
  responseLogger.after request = (request, .ok none) ∧
    responseLogger.onError request = (request, .ok none) ∧
    ∀ hooks : List Hook, Middy.runMiddlewares (responseLogger.after :: hooks) request =
        Middy.runMiddlewares hooks request ∧
      Middy.runMiddlewares (responseLogger.onError :: hooks) request =
        Middy.runMiddlewares hooks request

/-- The body is not a text, or it is JSON text. -/
def ReadableBody (request : Request) : Prop :=
  ∀ response text, request.response = some response → response.body = .str text →
    ∃ v, Json.parse text = .ok v

theorem parseResponseBody_returns_iff {response : LoggedResponse} :
    (∃ parsed, parseResponseBody response = .ok parsed) ↔
      ∀ text, response.body = .str text → ∃ v, Json.parse text = .ok v := by
  unfold parseResponseBody
  split
  · rename_i body hbody
    rw [hbody]
    cases hparse : Json.parse body with
    | error e =>
      refine iff_of_false ?_ ?_
      · intro hreturns
        rcases hreturns with ⟨parsed, hparsed⟩
        cases hparsed
      · intro hall
        obtain ⟨v, hv⟩ := hall body rfl
        rw [hparse] at hv
        cases hv
    | ok v =>
      refine iff_of_true ⟨_, rfl⟩ ?_
      intro text htext
      cases htext
      exact ⟨v, hparse⟩
  · rename_i hnot
    exact iff_of_true ⟨response, rfl⟩ fun text htext => absurd htext (hnot text)

theorem readableBody_iff {request : Request} :
    ReadableBody request ↔ ∃ parsed, parseResponseBody (spread request.response) = .ok parsed := by
  rw [parseResponseBody_returns_iff]
  unfold ReadableBody spread
  cases request.response with
  | none => exact iff_of_true (fun _ _ h => by cases h) (fun _ h => by cases h)
  | some response =>
    simp only [Option.some.injEq, Option.elim_some]
    exact ⟨fun h text => h response text rfl, fun h _ text hresponse => hresponse ▸ h text⟩

theorem logHook_of_readable {request : Request} (h : ReadableBody request) :
    logHook request = (request, .ok none) := by
  obtain ⟨parsed, hparsed⟩ := readableBody_iff.mp h
  unfold logHook logResponseImpl
  rw [hparsed]
  rfl

theorem readable_of_logHook {request : Request} (h : logHook request = (request, .ok none)) :
    ReadableBody request := by
  rw [readableBody_iff]
  have houtcome := congrArg Prod.snd h
  unfold logHook logResponseImpl at houtcome
  cases hparsed : parseResponseBody (spread request.response) with
  | error e =>
    rw [hparsed] at houtcome
    cases houtcome
  | ok parsed => exact ⟨parsed, rfl⟩

theorem transparent_of_readable {request : Request} (h : ReadableBody request) :
    Transparent request := by
  have hhook := logHook_of_readable h
  exact ⟨hhook, hhook, fun hooks =>
    ⟨Middy.runMiddlewares_of_pass hhook, Middy.runMiddlewares_of_pass hhook⟩⟩

/-- Logging is transparent exactly for the requests without a text that is not
JSON as the body, and where it meets no other its pipeline runs as without it. -/
theorem transparent_iff (request : Request) :
    (Transparent request ↔ ReadableBody request) ∧
      ∀ (pre post : List MiddlewareType)
        (baseHandler : APIGatewayEvent → Except Thrown APIGatewayProxyResult)
        (event : APIGatewayEvent),
        (∀ request, Middy.Sees pre post baseHandler event request → ReadableBody request) →
          Middy.run (pre ++ responseLogger :: post) baseHandler event =
            Middy.run (pre ++ post) baseHandler event := by
  constructor
  · exact ⟨fun htransparent => readable_of_logHook htransparent.1, transparent_of_readable⟩
  · intro pre post baseHandler event hreadable
    apply Middy.run_insert rfl
    intro request hsees
    have hhook := logHook_of_readable (hreadable request hsees)
    exact ⟨hhook, hhook⟩

def emptyEvent : APIGatewayEvent := ⟨some [], none, ⟨none⟩, .undefined⟩

def jsonHandler (_ : APIGatewayEvent) : Except Thrown APIGatewayProxyResult :=
  .ok ⟨some 200, none, .str "[]"⟩

theorem jsonHandler_readable {request : Request} {event : APIGatewayEvent}
    (h : Middy.Sees [] [] jsonHandler event request) : ReadableBody request := by
  cases h with
  | after hbefore hnone hbase hpassed =>
    cases hbase
    cases hpassed
    intro response text hresponse htext
    cases hresponse
    cases htext
    exact ⟨.arr [], rfl⟩
  | onError hattempt hpassed =>
    have houtcome := congrArg Prod.snd hattempt
    cases houtcome

theorem transparent_iff_jsonHandler :
    Middy.run [responseLogger] jsonHandler emptyEvent = Middy.run [] jsonHandler emptyEvent :=
  (transparent_iff ⟨emptyEvent, none, none⟩).2 [] [] jsonHandler emptyEvent
    fun _ hsees => jsonHandler_readable hsees

/-- A response whose body is plain text. -/
def plainTextRequest : Request where
  event := emptyEvent
  response := some ⟨some 404, none, .str "Entity not found"⟩
  error := none

theorem plainTextRequest_not_transparent : ¬ ∀ request : Request, Transparent request := by
  intro h
  obtain ⟨v, hparse⟩ := readable_of_logHook (h plainTextRequest).1 _ _ rfl rfl
  have hnot : Json.parse "Entity not found" ≠ .ok v := by
    have herror : ∃ e, Json.parse "Entity not found" = .error e := ⟨_, rfl⟩
    obtain ⟨e, he⟩ := herror
    rw [he]
    exact nofun
  exact hnot hparse

end Ovipro.ResponseLogger

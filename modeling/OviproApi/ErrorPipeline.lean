import OviproApi.ErrorResponses

/-! Pipelines around an arbitrary handler function that report its errors. The
error handler extends the response that is there, and after a throw there is
none until some other hook makes one. -/

namespace Ovipro.ErrorPipeline
open Ecma ErrorHandling Sample Middleware

/-- The ways to attach the error handler, alone or with the appender. -/
inductive Arrangement
  | handlerAlone
  | appenderFirst
  | handlerFirst
  deriving DecidableEq, Repr

def Arrangement.middlewares : Arrangement → List MiddlewareType
  | handlerAlone => [errorHandler]
  | appenderFirst => [requestIdHeaderAppender, errorHandler]
  | handlerFirst => [errorHandler, requestIdHeaderAppender]

def reportedStatus : Thrown → Nat
  | .handlerError error => error.statusCode
  | _ => 500

/-- The object that reports a thrown value: that of the error if it is a
`HandlerError`, and that of a technical error otherwise. -/
def ReportedAs : Thrown → List (String × Value) → Prop
  | .handlerError error =>
    ErrorObject error.errorCode.value error.message error.description error.errors
  | _ => ErrorObject "TECHNICAL_ERROR" "A technical error has occurred" none none

/-- The pipeline resolves with the status of the error and a JSON body that is read
as the error. -/
def Reports (arrangement : Arrangement)
    (baseHandler : APIGatewayEvent → Except Thrown APIGatewayProxyResult) (event : APIGatewayEvent)
    (e : Thrown) : Prop :=
  ∃ response, Middy.run arrangement.middlewares baseHandler event = .ok (some response) ∧
    response.statusCode = some (reportedStatus e) ∧
    ∃ text body, response.body = .str text ∧ Json.parse text = .ok (.obj body) ∧ ReportedAs e body

variable {baseHandler : APIGatewayEvent → Except Thrown APIGatewayProxyResult}
  {event : APIGatewayEvent} {e : Thrown} {headers : Headers}

theorem errorOutput_statusCode (e : Thrown) :
    (errorOutput (some e)).statusCode = reportedStatus e := by
  cases e with
  | handlerError error => rfl
  | httpError error => rfl
  | other message => rfl

theorem reportedAs_errorBody (e : Thrown) :
    ∃ text body, errorBody (errorOutput (some e)) = .str text ∧
      Json.parse text = .ok (.obj body) ∧ ReportedAs e body := by
  have hobject := errorObject_errorBody (errorOutput (some e))
  cases e with
  | handlerError error => exact hobject
  | httpError error => exact hobject
  | other message => exact hobject

theorem attempt_of_thrown (arrangement : Arrangement) (h : baseHandler event = .error e) :
    Middy.attempt arrangement.middlewares baseHandler ⟨event, none, none⟩ =
      (⟨event, none, none⟩, .error e) := by
  have hbefore : Middy.runMiddlewares (arrangement.middlewares.map (·.before))
      ⟨event, none, none⟩ = (⟨event, none, none⟩, .ok ()) := by
    cases arrangement with
    | handlerAlone => rfl
    | appenderFirst => rfl
    | handlerFirst => rfl
  rw [Middy.attempt, hbefore]
  simp only [h]
  rfl

/-- What the appender makes of a request without a response: a response with
headers, the request id among them, and nothing else. -/
theorem appendRequestId_of_noResponse (h : event.headers = some headers) (e : Thrown) :
    ∃ responseHeaders, appendRequestId ⟨event, none, some e⟩ =
      (⟨event, some ⟨none, some responseHeaders, .undefined⟩, some e⟩, .ok none) := by
  unfold appendRequestId
  cases hid : headers.lookup requestIdHeaderName with
  | none => exact ⟨[], by simp only [h, hid]; rfl⟩
  | some requestId =>
    by_cases hempty : requestId = ""
    · exact ⟨[], by simp only [h, hid, hempty]; rfl⟩
    · have hne : (requestId == "") = false := beq_eq_false_iff_ne.mpr hempty
      exact ⟨[(requestIdHeaderName, requestId)], by simp only [h, hid, hne]; rfl⟩

theorem reports_appenderFirst (hevent : event.headers = some headers)
    (hthrown : baseHandler event = .error e) : Reports .appenderFirst baseHandler event e := by
  obtain ⟨responseHeaders, happend⟩ := appendRequestId_of_noResponse hevent e
  have hattempt := attempt_of_thrown .appenderFirst hthrown
  have hhandled : Middy.runMiddlewares (Arrangement.appenderFirst.middlewares.map (·.onError))
      ⟨event, none, some e⟩ = (⟨event, some ⟨some (errorOutput (some e)).statusCode,
        some responseHeaders, errorBody (errorOutput (some e))⟩, some e⟩, .ok ()) :=
    Middy.runMiddlewares_of_pass happend
  have hrun := Middy.run_of_handled hattempt hhandled rfl
  exact ⟨_, hrun, congrArg some (errorOutput_statusCode e), reportedAs_errorBody e⟩

/-- Alone, the error handler leaves the response undefined and the error is
thrown again. -/
theorem run_handlerAlone (hthrown : baseHandler event = .error e) :
    Middy.run Arrangement.handlerAlone.middlewares baseHandler event = .error e := by
  have hattempt := attempt_of_thrown .handlerAlone hthrown
  -- the object that the extension returns is not assigned to anything
  rw [Middy.run, hattempt]
  rfl

/-- In front of the appender, the error handler has nothing to extend yet. -/
theorem run_handlerFirst (hevent : event.headers = some headers)
    (hthrown : baseHandler event = .error e) :
    ∃ responseHeaders, Middy.run Arrangement.handlerFirst.middlewares baseHandler event =
      .ok (some ⟨none, some responseHeaders, .undefined⟩) := by
  obtain ⟨responseHeaders, happend⟩ := appendRequestId_of_noResponse hevent e
  have hattempt := attempt_of_thrown .handlerFirst hthrown
  have hhandled : Middy.runMiddlewares (Arrangement.handlerFirst.middlewares.map (·.onError))
      ⟨event, none, some e⟩ =
        (⟨event, some ⟨none, some responseHeaders, .undefined⟩, some e⟩, .ok ()) :=
    Middy.runMiddlewares_of_pass happend
  exact ⟨responseHeaders, Middy.run_of_handled hattempt hhandled rfl⟩

/-- Errors are reported exactly where the appender is attached in front of the
error handler. -/
theorem reports_iff (arrangement : Arrangement)
    (baseHandler : APIGatewayEvent → Except Thrown APIGatewayProxyResult) (event : APIGatewayEvent)
    (headers : Headers) (e : Thrown) (hevent : event.headers = some headers)
    (hthrown : baseHandler event = .error e) :
    Reports arrangement baseHandler event e ↔ arrangement = .appenderFirst := by
  cases arrangement with
  | handlerAlone =>
    have hrun := run_handlerAlone hthrown
    refine iff_of_false ?_ (by decide)
    intro hreports
    rcases hreports with ⟨response, hresponse, -⟩
    rw [hrun] at hresponse
    cases hresponse
  | appenderFirst => exact iff_of_true (reports_appenderFirst hevent hthrown) rfl
  | handlerFirst =>
    obtain ⟨responseHeaders, hrun⟩ := run_handlerFirst hevent hthrown
    refine iff_of_false ?_ (by decide)
    intro hreports
    rcases hreports with ⟨response, hresponse, hstatus, -⟩
    rw [hrun] at hresponse
    cases hresponse
    cases hstatus

def invalidIdEvent : APIGatewayEvent where
  headers := some []
  queryStringParameters := none
  requestContext := ⟨none⟩
  body := .undefined

def invalidId (_ : APIGatewayEvent) : Except Thrown APIGatewayProxyResult :=
  .error (.handlerError (.new (some "Invalid ID") (some .invalidId) none none))

theorem reports_iff_invalidId :
    Reports .appenderFirst invalidId invalidIdEvent
        (.handlerError (.new (some "Invalid ID") (some .invalidId) none none)) ↔
      Arrangement.appenderFirst = .appenderFirst :=
  reports_iff .appenderFirst invalidId invalidIdEvent [] _ rfl rfl

theorem invalidId_not_reported_alone :
    ¬ ∀ (arrangement : Arrangement)
      (baseHandler : APIGatewayEvent → Except Thrown APIGatewayProxyResult)
      (event : APIGatewayEvent) (headers : Headers) (e : Thrown), event.headers = some headers →
        baseHandler event = .error e → Reports arrangement baseHandler event e := by
  intro h
  obtain ⟨response, hresponse, -⟩ := h .handlerAlone invalidId invalidIdEvent [] _ rfl rfl
  have hrun := @run_handlerAlone invalidId invalidIdEvent _ rfl
  rw [hrun] at hresponse
  cases hresponse

end Ovipro.ErrorPipeline

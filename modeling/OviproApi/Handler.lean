import OviproApi.Middleware
import OviproApi.NoOracle

/-! The exported handler: `processRequest` with its middlewares. What a client
receives differs from what `processRequest` decides in the status of its errors
and in the request id. -/

namespace Ovipro.Sample
open Ecma ErrorHandling Middleware

def middlewares (parseBody : APIGatewayEvent → Except Thrown Value) : List MiddlewareType :=
  [httpHeaderNormalizer, jsonBodyParser parseBody, requestIdHeaderAppender, errorHandler]

/-- `provideLogContext` around it adds data to the log only. -/
def handler (env : Environment) (parseBody : APIGatewayEvent → Except Thrown Value)
    (event : APIGatewayEvent) : Except Thrown (Option APIGatewayProxyResult) :=
  Middy.run (middlewares parseBody) (processRequest env) event

variable {env : Environment} {parseBody : APIGatewayEvent → Except Thrown Value}
  {event : APIGatewayEvent} {headers : Headers}

/-- The event that `processRequest` is called with, unless the body parser throws. -/
def handedEvent (parseBody : APIGatewayEvent → Except Thrown Value) (event : APIGatewayEvent) :
    Except Thrown APIGatewayEvent :=
  (parseBody (normalizeEvent event)).map fun body => { normalizeEvent event with body := body }

def errorResponse (e : Thrown) : APIGatewayProxyResult where
  statusCode := some (errorOutput (some e)).statusCode
  headers := some []
  body := errorBody (errorOutput (some e))

theorem before_phase (parseBody : APIGatewayEvent → Except Thrown Value) (event : APIGatewayEvent) :
    Middy.runMiddlewares ((middlewares parseBody).map (·.before)) ⟨event, none, none⟩ =
      match handedEvent parseBody event with
      | .error e => (⟨normalizeEvent event, none, none⟩, .error e)
      | .ok handed => (⟨handed, none, none⟩, .ok ()) := by
  have hnormalize : Middy.runMiddlewares ((middlewares parseBody).map (·.before))
      ⟨event, none, none⟩ = Middy.runMiddlewares [(jsonBodyParser parseBody).before, .skip, .skip]
        ⟨normalizeEvent event, none, none⟩ :=
    Middy.runMiddlewares_of_pass rfl
  rw [hnormalize]
  unfold handedEvent
  cases hbody : parseBody (normalizeEvent event) with
  | error e =>
    refine Middy.runMiddlewares_of_throw ?_
    unfold jsonBodyParser
    simp only [hbody]
  | ok body =>
    have hparse : (jsonBodyParser parseBody).before ⟨normalizeEvent event, none, none⟩ =
        (⟨{ normalizeEvent event with body := body }, none, none⟩, .ok none) := by
      unfold jsonBodyParser
      simp only [hbody]
    refine (Middy.runMiddlewares_of_pass hparse).trans ?_
    exact (Middy.runMiddlewares_skip _ _).trans (Middy.runMiddlewares_skip _ _)

theorem error_phase {request : Middleware.Request} {e : Thrown}
    (h : request.event.headers = some headers) (hid : headers.lookup requestIdHeaderName = none) :
    Middy.runMiddlewares ((middlewares parseBody).map (·.onError))
      { request with response := none, error := some e } =
      (⟨request.event, some (errorResponse e), some e⟩, .ok ()) := by
  have happend : appendRequestId { request with response := none, error := some e } = _ :=
    appendRequestId_of_absent h hid
  refine (Middy.runMiddlewares_skip _ _).trans ((Middy.runMiddlewares_skip _ _).trans ?_)
  exact (Middy.runMiddlewares_of_pass happend).trans (Middy.runMiddlewares_of_pass rfl)

theorem after_phase {handed : APIGatewayEvent} {response : APIGatewayProxyResult}
    (h : handed.headers = some headers) (hid : headers.lookup requestIdHeaderName = none) :
    Middy.runMiddlewares ((middlewares parseBody).reverse.map (·.after))
      ⟨handed, some response, none⟩ =
      (⟨handed, some { response with headers := some (response.headers.getD []) }, none⟩,
        .ok ()) := by
  have happend : appendRequestId ⟨handed, some response, none⟩ = _ :=
    appendRequestId_of_absent h hid
  rw [withHeaders_of_response rfl] at happend
  refine (Middy.runMiddlewares_skip _ _).trans ((Middy.runMiddlewares_of_pass happend).trans ?_)
  exact (Middy.runMiddlewares_skip _ _).trans (Middy.runMiddlewares_skip _ _)

theorem handedEvent_ok {handed : APIGatewayEvent} (h : handedEvent parseBody event = .ok handed) :
    ∃ body, parseBody (normalizeEvent event) = .ok body ∧
      handed = { normalizeEvent event with body := body } := by
  unfold handedEvent at h
  cases hbody : parseBody (normalizeEvent event) with
  | error e =>
    rw [hbody] at h
    cases h
  | ok body =>
    rw [hbody] at h
    exact ⟨body, rfl, (Except.ok.inj h).symm⟩

theorem normalizeEvent_headers (h : event.headers = some headers) :
    (normalizeEvent event).headers = some (lowerCaseHeaders headers) := by
  show event.headers.map lowerCaseHeaders = _
  rw [h]
  rfl

/-- What the client of an event with headers receives. -/
def answer (env : Environment) (parseBody : APIGatewayEvent → Except Thrown Value)
    (event : APIGatewayEvent) : APIGatewayProxyResult :=
  match handedEvent parseBody event >>= processRequest env with
  | .error e => errorResponse e
  | .ok response => { response with headers := some (response.headers.getD []) }

/-- The attempt, phase by phase. -/
theorem attempt_eq (env : Environment) (parseBody : APIGatewayEvent → Except Thrown Value)
    (event : APIGatewayEvent) :
    Middy.attempt (middlewares parseBody) (processRequest env) ⟨event, none, none⟩ =
      match handedEvent parseBody event with
      | .error e => (⟨normalizeEvent event, none, none⟩, .error e)
      | .ok handed =>
        match processRequest env handed with
        | .error e => (⟨handed, none, none⟩, .error e)
        | .ok response => Middy.runMiddlewares ((middlewares parseBody).reverse.map (·.after))
            ⟨handed, some response, none⟩ := by
  rw [Middy.attempt, before_phase]
  cases handedEvent parseBody event with
  | error e => rfl
  | ok handed =>
    cases hout : processRequest env handed with
    | error e =>
      simp only [hout]
      rfl
    | ok response =>
      simp only [hout]
      rfl

/-- With headers in the event the promise resolves. -/
theorem handler_eq (env : Environment) (parseBody : APIGatewayEvent → Except Thrown Value)
    (h : event.headers = some headers) :
    handler env parseBody event = .ok (some (answer env parseBody event)) := by
  have hid := lookup_lowerCaseHeaders headers
  have hnormalized := normalizeEvent_headers h
  have hattempt := attempt_eq env parseBody event
  unfold answer
  cases hhanded : handedEvent parseBody event with
  | error e =>
    rw [hhanded] at hattempt
    exact Middy.run_of_handled hattempt (error_phase hnormalized hid) rfl
  | ok handed =>
    have hheaders : handed.headers = some (lowerCaseHeaders headers) := by
      obtain ⟨body, -, rfl⟩ := handedEvent_ok hhanded
      exact hnormalized
    simp only [bind, Except.bind]
    cases hout : processRequest env handed with
    | error e =>
      simp only [hhanded, hout] at hattempt
      exact Middy.run_of_handled hattempt (error_phase hheaders hid) rfl
    | ok response =>
      simp only [hhanded, hout] at hattempt
      exact Middy.run_of_response (hattempt.trans (after_phase hheaders hid)) rfl

/-- An answer reports an error or carries an office. -/
theorem answer_cases (env : Environment) (parseBody : APIGatewayEvent → Except Thrown Value)
    (event : APIGatewayEvent) :
    (∃ e, answer env parseBody event = errorResponse e) ∨
      ∃ office, answer env parseBody event = { officeResponse office with headers := some [] } := by
  unfold answer
  cases hhanded : handedEvent parseBody event with
  | error e => exact Or.inl ⟨e, rfl⟩
  | ok handed =>
    simp only [bind, Except.bind]
    cases hout : processRequest env handed with
    | error e => exact Or.inl ⟨e, rfl⟩
    | ok response =>
      obtain ⟨user, row, -, rfl⟩ := processRequest_ok_iff.mp hout
      exact Or.inr ⟨.ofRow row, rfl⟩

/-! The status of the errors. -/

/-- Every `HttpError` of `processRequest` reaches the client with its status. -/
def StatusReachesClient (env : Environment) (parseBody : APIGatewayEvent → Except Thrown Value)
    (event : APIGatewayEvent) : Prop :=
  ∀ handed e, handedEvent parseBody event = .ok handed →
    processRequest env handed = .error (.httpError e) →
    ∃ response, handler env parseBody event = .ok (some response) ∧
      response.statusCode = some e.statusCode

theorem processRequest_handed {handed : APIGatewayEvent}
    (h : handedEvent parseBody event = .ok handed) :
    processRequest env handed = processRequest env event := by
  obtain ⟨body, -, rfl⟩ := handedEvent_ok h
  rfl

theorem answer_of_thrown {handed : APIGatewayEvent} {e : HttpError}
    (hhanded : handedEvent parseBody event = .ok handed)
    (hthrown : processRequest env handed = .error (.httpError e)) :
    answer env parseBody event = errorResponse (.httpError e) := by
  unfold answer
  rw [hhanded]
  simp only [bind, Except.bind, hthrown]

/-- An `HttpError` is not a `HandlerError`, hence reported as a technical error. -/
theorem errorResponse_status (e : HttpError) :
    (errorResponse (.httpError e)).statusCode = some 500 := rfl

/-- The status of the errors reaches the client unless something is missing
or the view is refused. -/
theorem statusReachesClient_iff (env : Environment)
    (parseBody : APIGatewayEvent → Except Thrown Value) (event : APIGatewayEvent)
    (headers : Headers) (h : event.headers = some headers) :
    StatusReachesClient env parseBody event ↔
      ∀ body, parseBody (normalizeEvent event) = .ok body → ¬ Missing env event := by
  constructor
  · intro hreaches body hbody hmissing
    have hhanded : handedEvent parseBody event =
        .ok { normalizeEvent event with body := body } := by
      unfold handedEvent
      rw [hbody]
      rfl
    obtain ⟨message, hthrown⟩ := processRequest_of_missing hmissing
    rw [← processRequest_handed hhanded] at hthrown
    obtain ⟨response, hresponse, hstatus⟩ := hreaches _ _ hhanded hthrown
    rw [handler_eq env parseBody h, answer_of_thrown hhanded hthrown] at hresponse
    cases hresponse
    cases hstatus
  · intro hpresent handed e hhanded hthrown
    refine ⟨_, handler_eq env parseBody h, ?_⟩
    rw [answer_of_thrown hhanded hthrown, errorResponse_status]
    rw [processRequest_handed hhanded] at hthrown
    rcases processRequest_throws hthrown with ⟨hmissing, -⟩ | ⟨-, he⟩
    · obtain ⟨body, hbody, -⟩ := handedEvent_ok hhanded
      exact absurd hmissing (hpresent body hbody)
    · cases he
      rfl

/-- An event without any data of a user. -/
def anonymousEvent : APIGatewayEvent :=
  { strangerEvent with requestContext := ⟨none⟩ }

theorem anonymousEvent_noUser : NoUser anonymousEvent := fun data h => by cases h

theorem statusReachesClient_iff_anonymous :
    StatusReachesClient sampleEnvironment (fun event => .ok event.body) anonymousEvent ↔
      ∀ body, .ok (normalizeEvent anonymousEvent).body = (.ok body : Except Thrown Value) →
        ¬ Missing sampleEnvironment anonymousEvent :=
  statusReachesClient_iff sampleEnvironment (fun event => .ok event.body) anonymousEvent _ rfl

theorem anonymous_status_lost :
    ¬ ∀ (env : Environment) (parseBody : APIGatewayEvent → Except Thrown Value)
      (event : APIGatewayEvent) (headers : Headers), event.headers = some headers →
        StatusReachesClient env parseBody event := by
  intro h
  have hthrown : processRequest sampleEnvironment
      { normalizeEvent anonymousEvent with body := .null } =
      .error (.httpError (CreateError.notFound "Entity not found.")) :=
    processRequest_of_noUser anonymousEvent_noUser
  obtain ⟨response, hresponse, hstatus⟩ :=
    h sampleEnvironment (fun event => .ok event.body) anonymousEvent _ rfl _ _ rfl hthrown
  rw [handler_eq _ _ rfl, answer_of_thrown rfl hthrown] at hresponse
  cases hresponse
  cases hstatus

/-! The request id. -/

def CarriesRequestId (env : Environment) (parseBody : APIGatewayEvent → Except Thrown Value)
    (event : APIGatewayEvent) (requestId : String) : Prop :=
  ∃ response headers, handler env parseBody event = .ok (some response) ∧
    response.headers = some headers ∧ headers.lookup requestIdHeaderName = some requestId

theorem answer_headers (env : Environment) (parseBody : APIGatewayEvent → Except Thrown Value)
    (event : APIGatewayEvent) : (answer env parseBody event).headers = some [] := by
  rcases answer_cases env parseBody event with ⟨e, hanswer⟩ | ⟨office, hanswer⟩
  · rw [hanswer]
    rfl
  · rw [hanswer]

theorem not_carriesRequestId (h : event.headers = some headers) (requestId : String) :
    ¬ CarriesRequestId env parseBody event requestId := by
  intro hcarries
  rcases hcarries with ⟨response, responseHeaders, hresponse, hsome, hlookup⟩
  have hanswer := answer_headers env parseBody event
  rw [handler_eq env parseBody h] at hresponse
  cases hresponse
  rw [hanswer] at hsome
  cases hsome
  cases hlookup

/-- The names of the event's headers are lower-cased before the request id is
looked up, so no response carries it. -/
theorem requestId_dropped (env : Environment) (parseBody : APIGatewayEvent → Except Thrown Value)
    (event : APIGatewayEvent) (headers : Headers) (h : event.headers = some headers)
    (requestId : String) :
    (∃ response, handler env parseBody event = .ok (some response) ∧
      response.headers = some []) ∧ ¬ CarriesRequestId env parseBody event requestId :=
  ⟨⟨_, handler_eq env parseBody h, answer_headers env parseBody event⟩,
    not_carriesRequestId h requestId⟩

theorem requestId_dropped_stranger :
    (∃ response, handler sampleEnvironment (fun event => .ok event.body) strangerEvent =
      .ok (some response) ∧ response.headers = some []) ∧
    ¬ CarriesRequestId sampleEnvironment (fun event => .ok event.body) strangerEvent
      "9031d1c5-7d40-41dd-b2b8-7919a2fc4fe9" :=
  requestId_dropped sampleEnvironment (fun event => .ok event.body) strangerEvent _ rfl _

theorem stranger_requestId_lost :
    ¬ ∀ (env : Environment) (parseBody : APIGatewayEvent → Except Thrown Value)
      (event : APIGatewayEvent) (headers : Headers) (requestId : String),
      event.headers = some headers → headers.lookup requestIdHeaderName = some requestId →
      requestId ≠ "" → CarriesRequestId env parseBody event requestId := by
  intro h
  have hheaders : strangerEvent.headers =
    some [("Request-ID", "9031d1c5-7d40-41dd-b2b8-7919a2fc4fe9")] := rfl
  have hcarried := h sampleEnvironment (fun event => .ok event.body) strangerEvent _
    "9031d1c5-7d40-41dd-b2b8-7919a2fc4fe9" hheaders (by decide) (by decide)
  exact not_carriesRequestId hheaders _ hcarried

/-! Whether there is an answer at all. -/

/-- The promise resolves with a status, a headers object and a text as the body. -/
def Answers (env : Environment) (parseBody : APIGatewayEvent → Except Thrown Value)
    (event : APIGatewayEvent) : Prop :=
  ∃ response, handler env parseBody event = .ok (some response) ∧
    (∃ status, response.statusCode = some status) ∧ (∃ headers, response.headers = some headers) ∧
    ∃ text, response.body = .str text

theorem answer_complete (env : Environment) (parseBody : APIGatewayEvent → Except Thrown Value)
    (event : APIGatewayEvent) :
    (∃ status, (answer env parseBody event).statusCode = some status) ∧
      ∃ text, (answer env parseBody event).body = .str text := by
  rcases answer_cases env parseBody event with ⟨e, hanswer⟩ | ⟨office, hanswer⟩
  · rw [hanswer]
    exact ⟨⟨_, rfl⟩, errorBody_isText _⟩
  · rw [hanswer]
    exact ⟨⟨200, rfl⟩, jsonText_obj _⟩

/-- The appender raises again on the error that it raised itself. -/
theorem error_phase_of_headerless {request : Middleware.Request} (h : request.event.headers = none)
    (e : Thrown) :
    ∃ request' e', Middy.runMiddlewares ((middlewares parseBody).map (·.onError))
      { request with response := none, error := some e } = (request', .error e') := by
  have hid : requestIdHeaderName ∉ ((withHeaders
      { request with response := none, error := some e }).headers.getD []).map Prod.fst :=
    List.not_mem_nil
  have happend : appendRequestId { request with response := none, error := some e } = _ :=
    appendRequestId_of_headerless h hid
  have hthrown : Middy.runMiddlewares [appendRequestId, handleError]
      { request with response := none, error := some e } = _ :=
    Middy.runMiddlewares_of_throw happend
  exact ⟨_, _, (Middy.runMiddlewares_skip _ _).trans ((Middy.runMiddlewares_skip _ _).trans hthrown)⟩

theorem after_phase_of_headerless {handed : APIGatewayEvent} {office : Dao.FoundOffice}
    (h : handed.headers = none) :
    ∃ request e, request.event.headers = none ∧
      Middy.runMiddlewares ((middlewares parseBody).reverse.map (·.after))
        ⟨handed, some (officeResponse office), none⟩ = (request, .error e) := by
  have hid : requestIdHeaderName ∉ ((withHeaders ⟨handed,
      some (officeResponse office), none⟩).headers.getD []).map Prod.fst := List.not_mem_nil
  have happend : appendRequestId ⟨handed, some (officeResponse office), none⟩ = _ :=
    appendRequestId_of_headerless h hid
  have hthrown : Middy.runMiddlewares [appendRequestId, .skip, .skip]
      ⟨handed, some (officeResponse office), none⟩ = _ :=
    Middy.runMiddlewares_of_throw happend
  exact ⟨_, _, h, (Middy.runMiddlewares_skip _ _).trans hthrown⟩

/-- Without headers every attempt ends in a throw. -/
theorem attempt_of_headerless (env : Environment)
    (parseBody : APIGatewayEvent → Except Thrown Value) (h : event.headers = none) :
    ∃ request e, request.event.headers = none ∧
      Middy.attempt (middlewares parseBody) (processRequest env) ⟨event, none, none⟩ =
        (request, .error e) := by
  have hnormalized : (normalizeEvent event).headers = none := by
    show event.headers.map lowerCaseHeaders = none
    rw [h]
    rfl
  rw [attempt_eq]
  cases hhanded : handedEvent parseBody event with
  | error e => exact ⟨_, e, hnormalized, rfl⟩
  | ok handed =>
    have hheaders : handed.headers = none := by
      obtain ⟨body, -, rfl⟩ := handedEvent_ok hhanded
      exact hnormalized
    cases hout : processRequest env handed with
    | error e =>
      simp only [hout]
      exact ⟨_, e, hheaders, rfl⟩
    | ok response =>
      -- a response without the header, so that the appender reads the event's headers
      obtain ⟨user, row, -, rfl⟩ := processRequest_ok_iff.mp hout
      obtain ⟨request, e, hnone, hafter⟩ :=
        @after_phase_of_headerless parseBody handed (.ofRow row) hheaders
      simp only [hout]
      exact ⟨request, e, hnone, hafter⟩

theorem handler_of_headerless (env : Environment)
    (parseBody : APIGatewayEvent → Except Thrown Value) (h : event.headers = none) :
    ∃ e, handler env parseBody event = .error e := by
  obtain ⟨request, e, hnone, hattempt⟩ := attempt_of_headerless env parseBody h
  obtain ⟨request', e', hthrown⟩ := error_phase_of_headerless hnone e
  exact ⟨e', Middy.run_of_rethrown hattempt hthrown⟩

theorem not_answers_of_headerless (h : event.headers = none) :
    ¬ Answers env parseBody event := by
  intro hanswers
  rcases hanswers with ⟨response, hresponse, -⟩
  obtain ⟨e, hrejected⟩ := handler_of_headerless env parseBody h
  rw [hrejected] at hresponse
  cases hresponse

/-- The handler answers exactly the events that have headers. -/
theorem answers_iff (env : Environment) (parseBody : APIGatewayEvent → Except Thrown Value)
    (event : APIGatewayEvent) :
    Answers env parseBody event ↔ ∃ headers, event.headers = some headers := by
  constructor
  · intro hanswers
    cases hheaders : event.headers with
    | some headers => exact ⟨headers, rfl⟩
    | none => exact absurd hanswers (not_answers_of_headerless hheaders)
  · intro hsome
    rcases hsome with ⟨headers, hheaders⟩
    obtain ⟨hstatus, hbody⟩ := answer_complete env parseBody event
    exact ⟨_, handler_eq env parseBody hheaders, hstatus,
      ⟨[], answer_headers env parseBody event⟩, hbody⟩

theorem headerless_rejected :
    ¬ ∀ (env : Environment) (parseBody : APIGatewayEvent → Except Thrown Value)
      (event : APIGatewayEvent), (∃ body, parseBody (normalizeEvent event) = .ok body) →
        Answers env parseBody event := by
  intro h
  have hanswers := h sampleEnvironment (fun event => .ok event.body)
    { strangerEvent with headers := none } ⟨_, rfl⟩
  have hnot : ¬ Answers sampleEnvironment (fun event => .ok event.body)
      { strangerEvent with headers := none } :=
    not_answers_of_headerless rfl
  exact hnot hanswers

end Ovipro.Sample

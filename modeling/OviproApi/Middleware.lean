import OviproApi.Middy
import OviproApi.ProcessRequest

/-! The middlewares of the API: the request id header, the error handler, and
the ones of middy that they are attached with. -/

namespace Ovipro.Middleware
open Ecma ErrorHandling Sample

abbrev Request := Middy.Request APIGatewayEvent APIGatewayProxyResult Thrown

abbrev Hook := Middy.Hook APIGatewayEvent APIGatewayProxyResult Thrown

abbrev MiddlewareType := Middy.Middleware APIGatewayEvent APIGatewayProxyResult Thrown

def requestIdHeaderName : String := "Request-ID"

/-- Assign to a property: in its place if it exists, at the end otherwise. -/
def setHeader (name value : String) : Headers → Headers
  | [] => [(name, value)]
  | (k, v) :: headers =>
    if k = name then (name, value) :: headers else (k, v) :: setHeader name value headers

def normalizeHttpResponse (response : Option APIGatewayProxyResult) : APIGatewayProxyResult :=
  match response with
  | none => { statusCode := none, headers := some [], body := .undefined }
  | some response => { response with headers := some (response.headers.getD []) }

def withHeaders (request : Request) : APIGatewayProxyResult :=
  match request.response with
  | some response => if response.headers.isSome then response else normalizeHttpResponse (some response)
  | none => normalizeHttpResponse none

def appendRequestId : Hook := fun request =>
  let response := withHeaders request
  let request := { request with response := some response }
  let existingHeaders := (response.headers.getD []).map Prod.fst
  if existingHeaders.contains requestIdHeaderName then (request, .ok none)
  else
    -- only now the headers of the event are read, which raises if there are none
    match request.event.headers with
    | none => (request, .error (.other "Cannot read properties of undefined (reading 'Request-ID')"))
    | some headers =>
      match headers.lookup requestIdHeaderName with
      | none => (request, .ok none)
      | some requestId =>
        if requestId == "" then (request, .ok none)
        else
          let headers := setHeader requestIdHeaderName requestId (response.headers.getD [])
          ({ request with response := some { response with headers := some headers } }, .ok none)

def requestIdHeaderAppender : MiddlewareType where
  before := .skip
  after := appendRequestId
  onError := appendRequestId

def textOrUndefined (text : Option String) : Value := text.elim .undefined .str

def wrapperValue (error : ErrorWrapper) : Value :=
  .obj [("errorCode", .str error.errorCode.value), ("message", .str error.message),
    ("target", textOrUndefined error.target), ("name", textOrUndefined error.name)]

/-- The error that is reported: a technical error unless a `HandlerError` was thrown. -/
def errorOutput : Option Thrown → HandlerError
  | some (.handlerError error) => error
  | _ => .new none none none none

def errorBody (error : HandlerError) : Value :=
  jsonText (.obj [("errorCode", .str error.errorCode.value), ("message", .str error.message),
    ("description", textOrUndefined (error.description.filter (· != ""))),
    ("errors", error.errors.elim .undefined fun errors => .arr (errors.map wrapperValue))])

/-- Without a response there is nothing to extend. -/
def handleError : Hook := fun request =>
  let error := errorOutput request.error
  let response := request.response.map fun response =>
    { response with statusCode := some error.statusCode, body := errorBody error }
  ({ request with response := response }, .ok none)

def errorHandler : MiddlewareType where
  before := .skip
  after := .skip
  onError := handleError

/-- Header names are ASCII. -/
def toLowerCase (name : String) : String := .ofList (name.toList.map Char.toLower)

def lowerCaseHeaders (headers : Headers) : Headers :=
  headers.foldl (fun normalized header => setHeader (toLowerCase header.1) header.2 normalized) []

def normalizeEvent (event : APIGatewayEvent) : APIGatewayEvent :=
  { event with headers := event.headers.map lowerCaseHeaders }

def httpHeaderNormalizer : MiddlewareType where
  before request := ({ request with event := normalizeEvent request.event }, .ok none)
  after := .skip
  onError := .skip

/-- The body that is parsed from an event, or what the parser throws, is
given by `parseBody`. -/
def jsonBodyParser (parseBody : APIGatewayEvent → Except Thrown Value) : MiddlewareType where
  before request :=
    match parseBody request.event with
    | .error e => (request, .error e)
    | .ok body => ({ request with event := { request.event with body := body } }, .ok none)
  after := .skip
  onError := .skip

theorem lookup_setHeader (name value key : String) (headers : Headers) :
    (setHeader name value headers).lookup key =
      if key = name then some value else headers.lookup key := by
  induction headers with
  | nil =>
    unfold setHeader
    rw [List.lookup_cons]
    by_cases hkey : key = name
    · simp [hkey]
    · simp [hkey, beq_eq_false_iff_ne.mpr hkey]
  | cons header headers ih =>
    obtain ⟨k, v⟩ := header
    unfold setHeader
    by_cases hk : k = name
    · subst hk
      rw [if_pos rfl, List.lookup_cons, List.lookup_cons]
      by_cases hkey : key = k
      · simp [hkey]
      · simp [hkey, beq_eq_false_iff_ne.mpr hkey]
    · rw [if_neg hk, List.lookup_cons, List.lookup_cons, ih]
      by_cases hkey : key = k
      · subst hkey
        simp [hk]
      · simp [beq_eq_false_iff_ne.mpr hkey]

theorem isUpper_toLower (c : Char) : c.toLower.isUpper = false := by
  show decide (c.toLower.val ≥ 'A'.val ∧ c.toLower.val ≤ 'Z'.val) = false
  rw [decide_eq_false_iff_not]
  by_cases h : c.val ≥ 'A'.val ∧ c.val ≤ 'Z'.val
  · have hlower : c.toLower.val = c.val + ('a'.val - 'A'.val) := congrArg Char.val (dif_pos h)
    have hge : 65 ≤ c.val.toNat := h.1
    have hle : c.val.toNat ≤ 90 := h.2
    have hmoved : c.toLower.val.toNat = c.val.toNat + 32 := by
      have hshift : ('a'.val - 'A'.val).toNat = 32 := rfl
      rw [hlower, UInt32.toNat_add, hshift]
      omega
    intro hrange
    have hend : c.toLower.val.toNat ≤ 90 := hrange.2
    omega
  · have hlower : c.toLower = c := dif_neg h
    rw [hlower]
    exact h

/-- A lower-cased name is never that of the request id header. -/
theorem toLowerCase_ne (name : String) : toLowerCase name ≠ requestIdHeaderName := by
  intro h
  have hmem : 'R' ∈ (toLowerCase name).toList := by
    rw [h]
    decide
  rw [toLowerCase, String.toList_ofList] at hmem
  obtain ⟨c, -, hc⟩ := List.mem_map.mp hmem
  have hupper := isUpper_toLower c
  rw [hc] at hupper
  exact absurd hupper (by decide)

theorem lookup_lowerCaseHeaders (headers : Headers) :
    (lowerCaseHeaders headers).lookup requestIdHeaderName = none := by
  have key : ∀ (headers normalized : Headers), normalized.lookup requestIdHeaderName = none →
      (headers.foldl (fun normalized header => setHeader (toLowerCase header.1) header.2 normalized)
        normalized).lookup requestIdHeaderName = none := by
    intro headers
    induction headers with
    | nil => exact fun _ h => h
    | cons header headers ih =>
      intro normalized h
      refine ih _ ?_
      rw [lookup_setHeader, if_neg (toLowerCase_ne header.1).symm, h]
  exact key headers [] rfl

theorem withHeaders_of_response {request : Request} {response : APIGatewayProxyResult}
    (h : request.response = some response) :
    withHeaders request = { response with headers := some (response.headers.getD []) } := by
  unfold withHeaders
  rw [h]
  cases hheaders : response.headers with
  | none =>
    unfold normalizeHttpResponse
    simp [hheaders]
  | some headers =>
    cases response
    simp at hheaders
    simp [hheaders]

/-- Without the header in the event the response only gets its headers object. -/
theorem appendRequestId_of_absent {request : Request} {headers : Headers}
    (h : request.event.headers = some headers)
    (hid : headers.lookup requestIdHeaderName = none) :
    appendRequestId request = ({ request with response := some (withHeaders request) }, .ok none) := by
  unfold appendRequestId
  simp only [h, hid]
  split <;> rfl

/-- Without headers in the event the appender raises, unless the response
already has the request id. -/
theorem appendRequestId_of_headerless {request : Request} (h : request.event.headers = none)
    (hid : requestIdHeaderName ∉ ((withHeaders request).headers.getD []).map Prod.fst) :
    appendRequestId request = ({ request with response := some (withHeaders request) },
      .error (.other "Cannot read properties of undefined (reading 'Request-ID')")) := by
  unfold appendRequestId
  simp only [List.contains_iff_mem, hid, if_false, h]

theorem jsonText_obj (members : List (String × Value)) :
    ∃ text, jsonText (.obj members) = .str text := ⟨_, rfl⟩

theorem errorBody_isText (error : HandlerError) : ∃ text, errorBody error = .str text :=
  jsonText_obj _

end Ovipro.Middleware

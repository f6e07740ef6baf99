import OviproApi.ErrorResponses
import OviproApi.Handler

/-! What a client of the exported handler can learn: an office that its user may
view, or nothing but one fixed error. -/

namespace Ovipro.Sample
open Ecma ErrorHandling Middleware Dao

variable {env : Environment} {parseBody : APIGatewayEvent → Except Thrown Value}
  {event : APIGatewayEvent} {headers : Headers}

/-! The two responses that a client can receive. -/

/-- The office of a row, in a response with an empty headers object. -/
structure OfficeAnswer (row : Sql.Row Scalar) (response : APIGatewayProxyResult) : Prop
    extends CarriesOffice row response where
  headers : response.headers = some []

/-- The status 500 with the one error object. -/
structure TechnicalError (response : APIGatewayProxyResult) : Prop where
  statusCode : response.statusCode = some 500
  headers : response.headers = some []
  body : ∃ text, response.body = .str text ∧ Json.parse text =
    .ok (.obj [("errorCode", .str "TECHNICAL_ERROR"),
      ("message", .str "A technical error has occurred")])

/-- The response to every request that is not granted. -/
def technicalError : APIGatewayProxyResult := errorResponse (.httpError CreateError.internalServerError)

/-- The response with an office. -/
def officeAnswer (office : FoundOffice) : APIGatewayProxyResult :=
  { officeResponse office with headers := some [] }

theorem officeAnswer_carries (row : Sql.Row Scalar) : OfficeAnswer row (officeAnswer (.ofRow row)) :=
  have hcarries := carriesOffice_officeResponse row
  ⟨⟨hcarries.statusCode, hcarries.body⟩, rfl⟩

theorem technicalError_reads : TechnicalError technicalError where
  statusCode := rfl
  headers := rfl
  body := ErrorHandling.parse_errorBody (.new none none none none)

/-- Which `HttpError` was thrown does not show. -/
theorem errorResponse_of_httpError (e : HttpError) :
    errorResponse (.httpError e) = technicalError := rfl

theorem handedEvent_of_body {body : Value} (h : parseBody (normalizeEvent event) = .ok body) :
    handedEvent parseBody event = .ok { normalizeEvent event with body := body } := by
  unfold handedEvent
  rw [h]
  rfl

theorem answer_of_granted {handed : APIGatewayEvent} (hhanded : handedEvent parseBody event = .ok handed)
    {user : Value} {row : Sql.Row Scalar} (h : Granted env event user row) :
    answer env parseBody event = officeAnswer (.ofRow row) := by
  have hout : processRequest env handed = .ok (officeResponse (.ofRow row)) :=
    (processRequest_handed hhanded).trans (processRequest_of_granted h)
  unfold answer
  rw [hhanded]
  simp only [bind, Except.bind, hout]
  rfl

theorem answer_of_not_granted {handed : APIGatewayEvent}
    (hhanded : handedEvent parseBody event = .ok handed)
    (h : ∀ user row, ¬ Granted env event user row) :
    answer env parseBody event = technicalError := by
  have hthrown : ∃ e, processRequest env event = .error (.httpError e) := by
    rcases request_cases env event with ⟨user, row, hgranted⟩ | hmissing | hraised
    · exact absurd hgranted (h user row)
    · obtain ⟨message, hmessage⟩ := processRequest_of_missing hmissing
      exact ⟨_, hmessage⟩
    · exact ⟨_, processRequest_of_raised hraised⟩
  obtain ⟨e, he⟩ := hthrown
  rw [← processRequest_handed hhanded] at he
  exact (answer_of_thrown hhanded he).trans (errorResponse_of_httpError e)

/-- An event whose body is parsed is answered with the office that is granted, if
there is one, and with the technical error in all other cases. -/
theorem handler_answers (env : Environment) (parseBody : APIGatewayEvent → Except Thrown Value)
    (event : APIGatewayEvent) (headers : Headers) (body : Value) (h : event.headers = some headers)
    (hbody : parseBody (normalizeEvent event) = .ok body) :
    (∀ user row, Granted env event user row →
      ∃ response, handler env parseBody event = .ok (some response) ∧ OfficeAnswer row response) ∧
    ((∀ user row, ¬ Granted env event user row) →
      ∃ response, handler env parseBody event = .ok (some response) ∧ TechnicalError response) := by
  have hhanded := handedEvent_of_body hbody
  rw [handler_eq env parseBody h]
  constructor
  · intro user row hgranted
    rw [answer_of_granted hhanded hgranted]
    exact ⟨_, rfl, officeAnswer_carries row⟩
  · intro hnone
    rw [answer_of_not_granted hhanded hnone]
    exact ⟨_, rfl, technicalError_reads⟩

def admin : Value :=
  .obj [("globalPermissions", .arr [.str "PRO_ADMIN"]),
    ("organizationPermissionTree", .obj [("customerGroups", .arr [])])]

def adminData : String :=
  "\x7b\"globalPermissions\":[\"PRO_ADMIN\"],\"organizationPermissionTree\":\x7b\"customerGroups\":[]\x7d\x7d"

theorem parse_adminData : Json.parse adminData = .ok admin := by decide +kernel

def adminEvent : APIGatewayEvent :=
  { strangerEvent with requestContext := ⟨some ⟨some adminData⟩⟩ }

def oneOfficeEnvironment : Environment :=
  sampleEnvironment.inState OfficeDAO.emptyConnection oneOfficeDatabase fun _ => none

def oneOfficeRow : Sql.Row Scalar :=
  [("office_id", .number 1), ("public_id", .text "351ba7bb-c79a-49b7-927c-87398500f180")]

theorem admin_granted : Granted oneOfficeEnvironment adminEvent admin oneOfficeRow where
  left := ⟨⟨adminData, rfl, parse_adminData, rfl⟩, "351ba7bb-c79a-49b7-927c-87398500f180",
    ⟨rfl, by decide⟩, _, "351ba7bb-c79a-49b7-927c-87398500f180", rfl, rfl, rfl, rfl⟩
  right := decides_iff.mpr rfl

theorem handler_answers_admin :
    ∃ response, handler oneOfficeEnvironment (fun event => .ok event.body) adminEvent =
      .ok (some response) ∧ OfficeAnswer oneOfficeRow response :=
  (handler_answers oneOfficeEnvironment (fun event => .ok event.body) adminEvent _ _ rfl rfl).1
    admin oneOfficeRow admin_granted

/-! The offices that a user may not view. -/

/-- The user may view the offices with the public id that the text stands for. -/
def Viewable (connection : Connection) (user : Value) (uuid : String) : Prop :=
  ∃ text, connection.castUuid uuid = .ok text ∧
    Runtime.canView user (.obj [("publicId", .str text)]) = .ok true

theorem userOf_unique {user user' : Value} (h : UserOf event user) (h' : UserOf event user') :
    user = user' := by
  obtain ⟨data, hdata, hparse, -⟩ := h
  obtain ⟨data', hdata', hparse', -⟩ := h'
  cases Option.some.inj (hdata.symm.trans hdata')
  exact Except.ok.inj (hparse.symm.trans hparse')

/-- Only what the user may view is granted, in whatever state the database is. -/
theorem viewable_of_granted {connection : Connection} {database : Sql.Database Scalar}
    {fault : Sql.TableName → Option String} {user : Value} {row : Sql.Row Scalar}
    (h : Granted (env.inState connection database fault) event user row) :
    ∃ uuid, ValidId env event uuid ∧ Viewable connection user uuid := by
  obtain ⟨⟨-, uuid, hid, c, text, hc, -, htext, hrows⟩, hdecides⟩ := h
  cases hc
  have hselected : row ∈ officesOf { connection with database := database, fault := fault } text := by
    rw [← hrows]
    exact List.mem_singleton_self row
  have hview := decides_iff.mp hdecides
  exact ⟨uuid, hid, text, htext, (canView_of_selected hselected).symm.trans hview⟩

/-- What is answered about a public id whose offices the user may view is decided
by these offices. -/
theorem processRequest_of_viewable {connection : Connection} {database database' : Sql.Database Scalar}
    {fault fault' : Sql.TableName → Option String} {user : Value} {uuid : String}
    (huser : UserOf event user)
    (hsame : ((database.rows (officeTable connection)).filter (views user)).Perm
      ((database'.rows (officeTable connection)).filter (views user)))
    (hid : ValidId env event uuid) (hview : Viewable connection user uuid)
    (hraises : ¬ LookupRaises (env.inState connection database fault) uuid)
    (hraises' : ¬ LookupRaises (env.inState connection database' fault') uuid) :
    processRequest (env.inState connection database fault) event =
      processRequest (env.inState connection database' fault') event := by
  obtain ⟨rows, hrows⟩ := (lookup_cases _ uuid).resolve_left hraises
  obtain ⟨rows', hrows'⟩ := (lookup_cases _ uuid).resolve_left hraises'
  have hout : processRequest (env.inState connection database fault) event = _ :=
    processRequest_of_rows huser hid hrows
  have hout' : processRequest (env.inState connection database' fault') event = _ :=
    processRequest_of_rows huser hid hrows'
  rw [hout, hout']
  obtain ⟨c, text, hc, -, htext, rfl⟩ := hrows
  obtain ⟨c', text', hc', -, htext', rfl⟩ := hrows'
  cases hc
  cases hc'
  obtain ⟨viewed, hviewed, hview⟩ := hview
  cases htext.symm.trans htext'
  cases htext.symm.trans hviewed
  exact congrArg _ (respond_of_viewed hsame hview)

/-- The whole response of the handler depends on the offices that the user may
view only: not on the others, and where the id is of one of the others not even
on failures of the database. -/
theorem handler_no_oracle (env : Environment) (parseBody : APIGatewayEvent → Except Thrown Value)
    (event : APIGatewayEvent) (headers : Headers) (h : event.headers = some headers)
    (connection : Connection) (database database' : Sql.Database Scalar)
    (fault fault' : Sql.TableName → Option String) (user : Value) (huser : UserOf event user)
    (hsame : ((database.rows (officeTable connection)).filter (views user)).Perm
      ((database'.rows (officeTable connection)).filter (views user)))
    (hlookup : ∀ uuid, ValidId env event uuid → Viewable connection user uuid →
      ¬ LookupRaises (env.inState connection database fault) uuid ∧
        ¬ LookupRaises (env.inState connection database' fault') uuid) :
    handler (env.inState connection database fault) parseBody event =
      handler (env.inState connection database' fault') parseBody event := by
  rw [handler_eq _ parseBody h, handler_eq _ parseBody h]
  cases hhanded : handedEvent parseBody event with
  | error e =>
    unfold answer
    rw [hhanded]
    rfl
  | ok handed =>
    by_cases hviewable : ∃ uuid, ValidId env event uuid ∧ Viewable connection user uuid
    · obtain ⟨uuid, hid, hview⟩ := hviewable
      obtain ⟨hraises, hraises'⟩ := hlookup uuid hid hview
      have hout := processRequest_of_viewable huser hsame hid hview hraises hraises'
      unfold answer
      rw [hhanded]
      simp only [bind, Except.bind, processRequest_handed hhanded, hout]
    · -- nothing is granted in either state, so both answer with the same error
      have hnone : ∀ database fault user' row,
          ¬ Granted (env.inState connection database fault) event user' row := by
        intro database fault user' row hgranted
        have hsame := userOf_unique huser hgranted.1.user
        subst hsame
        exact hviewable (viewable_of_granted hgranted)
      rw [answer_of_not_granted hhanded (hnone database fault),
        answer_of_not_granted hhanded (hnone database' fault')]

/-- An office that is there and a database that is down are the same to a stranger. -/
theorem handler_no_oracle_stranger :
    handler (sampleEnvironment.inState OfficeDAO.emptyConnection oneOfficeDatabase fun _ => none)
        (fun event => .ok event.body) strangerEvent =
      handler (sampleEnvironment.inState OfficeDAO.emptyConnection
          OfficeDAO.emptyConnection.database fun _ => some "connection refused")
        (fun event => .ok event.body) strangerEvent := by
  refine handler_no_oracle sampleEnvironment (fun event => .ok event.body) strangerEvent _ rfl
    OfficeDAO.emptyConnection oneOfficeDatabase OfficeDAO.emptyConnection.database (fun _ => none)
    (fun _ => some "connection refused") stranger
    (userOf_of_shape rfl parse_strangerData stranger_shape) (.of_eq rfl) ?_
  rintro uuid - ⟨text, -, hview⟩
  have hrefused : Runtime.canView stranger (.obj [("publicId", .str text)]) = .ok false := rfl
  rw [hrefused] at hview
  cases hview

end Ovipro.Sample

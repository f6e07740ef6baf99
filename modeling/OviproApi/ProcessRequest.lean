import OviproApi.Ecma.JsonRoundTrip
import OviproApi.OfficeDAO
import OviproApi.Refinement

/-! The handler function of the sample API, and what it answers for every event
and every content of the database. -/

namespace Ovipro.Sample
open Ecma ErrorHandling Dao

abbrev Headers := List (String × String)

structure AuthorizerContext where
  data : Option String

structure RequestContext where
  authorizer : Option AuthorizerContext

/-- The fields of an event that the API reads. A field that is `null` or absent
is `none`. -/
structure APIGatewayEvent where
  headers : Option Headers
  queryStringParameters : Option (List (String × String))
  requestContext : RequestContext
  body : Value

structure APIGatewayProxyResult where
  statusCode : Option Nat
  headers : Option Headers
  body : Value

/-- `validate` is that of the package `uuid`. -/
structure Environment where
  validate : String → Bool
  validate_empty : validate "" = false
  getConnection : Except String Connection

def thrownOf : Ecma.Error → Thrown
  | .typeError message => .other message
  | .syntaxError message => .other message

def getUserFromRequest (event : APIGatewayEvent) : Except Ecma.Error Value :=
  match event.requestContext.authorizer.bind (·.data) with
  | none => pure .undefined
  | some userData => if userData == "" then pure (.str userData) else Json.parse userData

def jsonText (v : Value) : Value := (Json.stringify v).elim .undefined .str

/-- The awaited lookup, `none` where it is `undefined` or `false`. -/
def findOffice (env : Environment) (uuid : Option String) : Except Thrown (Option FoundOffice) :=
  match uuid with
  | none => pure none
  | some uuid =>
    if uuid != "" && env.validate uuid then
      OfficeDAO.findOneByPublicId env.getConnection uuid none
    else pure none

def officeResponse (office : FoundOffice) : APIGatewayProxyResult where
  statusCode := some 200
  headers := none
  body := jsonText (.obj [("office", office.toValue)])

/-- The part after the lookup. -/
def respond (user : Value) (office : Option FoundOffice) : Except Thrown APIGatewayProxyResult :=
  match office with
  | none => throw (.httpError (CreateError.notFound "Entity not found"))
  | some office => do
    let view ← (Runtime.canView user office.toValue).mapError thrownOf
    if !view then throw (.httpError (CreateError.notFound "Entity not found"))
    else return officeResponse office

/-- The `catch` block. -/
def reclassify : Thrown → Thrown
  | .httpError e => .httpError e
  | _ => .httpError CreateError.internalServerError

def processRequest (env : Environment) (event : APIGatewayEvent) :
    Except Thrown APIGatewayProxyResult :=
  Except.mapError reclassify do
    let uuid := event.queryStringParameters.bind fun parameters => parameters.lookup "id"
    -- the user is checked before the id is, so bad user data hide a bad id
    let user ← (getUserFromRequest event).mapError thrownOf
    if !user.truthy then throw (.httpError (CreateError.notFound "Entity not found."))
    let office ← findOffice env uuid
    respond user office

/-! The offices of the database, and what an answer tells of one. -/

/-- The rows of the office table with a public id. -/
def officesOf (connection : Connection) (publicId : String) : List (Sql.Row Scalar) :=
  (connection.database.rows ⟨"common", "office"⟩).filter fun row =>
    row.lookup "public_id" = some (.text publicId)

inductive ColumnReads (row : Sql.Row Scalar) (name : String) : Value → Prop
  | null (h : row.lookup name = none) : ColumnReads row name .null
  | number (n : Int) (h : row.lookup name = some (.number n)) :
      ColumnReads row name (.num (.ofInt n))
  | text (s : String) (h : row.lookup name = some (.text s)) : ColumnReads row name (.str s)

/-- An office is its id and its public id. -/
def OfficeOf (row : Sql.Row Scalar) (office : Value) : Prop :=
  ∃ id publicId, ColumnReads row "office_id" id ∧ ColumnReads row "public_id" publicId ∧
    office = .obj [("id", id), ("publicId", publicId)]

/-- What the authorizer decides about the office of a row. -/
def Decides (user : Value) (row : Sql.Row Scalar) (decision : Except Ecma.Error Bool) : Prop :=
  ∃ office, OfficeOf row office ∧ Runtime.canView user office = decision

/-- A response with the status 200 whose body reads as `{office}` of a row. -/
structure CarriesOffice (row : Sql.Row Scalar) (response : APIGatewayProxyResult) : Prop where
  statusCode : response.statusCode = some 200
  body : ∃ text office, response.body = .str text ∧ OfficeOf row office ∧
    Json.parse text = .ok (.obj [("office", Json.kept office)])

/-! What a request meets on its way, in the order in which it is met. -/

section
variable (env : Environment) (event : APIGatewayEvent)

def AuthorizerData (data : String) : Prop :=
  event.requestContext.authorizer.bind (·.data) = some data

def UserOf (user : Value) : Prop :=
  ∃ data, AuthorizerData event data ∧ Json.parse data = .ok user ∧ user.truthy = true

/-- No data, an empty text, or data that parse to a falsy value. -/
def NoUser : Prop :=
  ∀ data, AuthorizerData event data → data = "" ∨ ∃ v, Json.parse data = .ok v ∧ v.truthy = false

def UserRaises : Prop :=
  ∃ data e, AuthorizerData event data ∧ data ≠ "" ∧ Json.parse data = .error e

def ValidId (uuid : String) : Prop :=
  (event.queryStringParameters.bind fun parameters => parameters.lookup "id") = some uuid ∧
    env.validate uuid = true

def LookupYields (uuid : String) (rows : List (Sql.Row Scalar)) : Prop :=
  ∃ connection publicId, env.getConnection = .ok connection ∧
    connection.fault ⟨"common", "office"⟩ = none ∧ connection.castUuid uuid = .ok publicId ∧
    rows = officesOf connection publicId

/-- There is no connection, the table cannot be read, or the id is no uuid there. -/
def LookupRaises (uuid : String) : Prop :=
  (∃ e, env.getConnection = .error e) ∨ ∃ connection e, env.getConnection = .ok connection ∧
    (connection.fault ⟨"common", "office"⟩ = some e ∨ connection.castUuid uuid = .error e)

/-- A user and the one row of a valid id, before the view is decided. -/
structure Reaches (user : Value) (row : Sql.Row Scalar) : Prop where
  user : UserOf event user
  row : ∃ uuid, ValidId env event uuid ∧ LookupYields env uuid [row]

def Granted (user : Value) (row : Sql.Row Scalar) : Prop :=
  Reaches env event user row ∧ Decides user row (.ok true)

inductive Missing : Prop
  | user (h : NoUser event)
  | id (user : Value) (huser : UserOf event user) (h : ∀ uuid, ¬ ValidId env event uuid)
  | row (user : Value) (uuid : String) (rows : List (Sql.Row Scalar)) (huser : UserOf event user)
      (hid : ValidId env event uuid) (hrows : LookupYields env uuid rows) (h : rows.length ≠ 1)
  | refused (user : Value) (row : Sql.Row Scalar) (hreach : Reaches env event user row)
      (h : Decides user row (.ok false))

inductive Raised : Prop
  | user (h : UserRaises event)
  | lookup (user : Value) (uuid : String) (huser : UserOf event user)
      (hid : ValidId env event uuid) (h : LookupRaises env uuid)
  | authorization (user : Value) (row : Sql.Row Scalar) (e : Ecma.Error)
      (hreach : Reaches env event user row) (h : Decides user row (.error e))

end

variable {env : Environment} {event : APIGatewayEvent}

/-! The rows as the DAO reads them. -/

theorem columnReads_iff {row : Sql.Row Scalar} {name : String} {v : Value} :
    ColumnReads row name v ↔ v = column row name := by
  unfold column
  constructor
  · intro h
    cases h with
    | null h => rw [h]; rfl
    | number n h => rw [h]; rfl
    | text s h => rw [h]; rfl
  · rintro rfl
    cases h : row.lookup name with
    | none => exact .null h
    | some cell =>
      cases cell with
      | number n => exact .number n h
      | text s => exact .text s h

theorem officeOf_iff {row : Sql.Row Scalar} {office : Value} :
    OfficeOf row office ↔ office = (FoundOffice.ofRow row).toValue := by
  constructor
  · intro h
    rcases h with ⟨id, publicId, hid, hpublicId, rfl⟩
    rw [columnReads_iff.mp hid, columnReads_iff.mp hpublicId]
    rfl
  · intro h
    exact ⟨_, _, columnReads_iff.mpr rfl, columnReads_iff.mpr rfl, h⟩

theorem decides_iff {user : Value} {row : Sql.Row Scalar} {decision : Except Ecma.Error Bool} :
    Decides user row decision ↔
      Runtime.canView user (FoundOffice.ofRow row).toValue = decision := by
  simp only [Decides, officeOf_iff, exists_eq_left]

/-- A column is written like a value that can be written: infinity as `null`. -/
theorem column_written (row : Sql.Row Scalar) (name : String) :
    ∃ w, Json.WellFormed w ∧ Json.serialize w = Json.serialize (column row name) ∧
      Json.kept w = Json.kept (column row name) ∧ w ≠ .undefined ∧
      column row name ≠ .undefined := by
  unfold column
  cases row.lookup name with
  | none => exact ⟨.null, trivial, rfl, rfl, nofun, nofun⟩
  | some cell =>
    cases cell with
    | text s => exact ⟨.str s, trivial, rfl, rfl, nofun, nofun⟩
    | number n =>
      have hcases := Number.ofDecimal_cases (n < 0) n.natAbs 0
      rcases hcases with hfinite | hinfinite
      · exact ⟨.num (.ofInt n), hfinite, rfl, rfl, nofun, nofun⟩
      · have hvalue : Scalar.toValue (.number n) = .num (.infinite (n < 0)) :=
          congrArg Value.num hinfinite
        refine ⟨.null, trivial, ?_, ?_, nofun, nofun⟩
        · rw [Option.elim_some, hvalue]
          rfl
        · rw [Option.elim_some, hvalue]
          rfl

theorem carriesOffice_officeResponse (row : Sql.Row Scalar) :
    CarriesOffice row (officeResponse (.ofRow row)) := by
  obtain ⟨id, hid, hidText, hidKept, hidDefined, hidRead⟩ := column_written row "office_id"
  obtain ⟨publicId, hpublic, hpublicText, hpublicKept, hpublicDefined, hpublicRead⟩ :=
    column_written row "public_id"
  have hordered : Json.Ordered [("id", id), ("publicId", publicId)] := by
    apply Json.ordered_of_names
    · simp only [List.forall_mem_cons]
      decide
    · simp only [List.map_cons, List.map_nil]
      decide
  have hwell : Json.WellFormed (.obj [("office", .obj [("id", id), ("publicId", publicId)])]) :=
    ⟨List.pairwise_singleton _ _, ⟨hordered, hid, hpublic, trivial⟩, trivial⟩
  obtain ⟨text, htext, hparse⟩ := Json.parse_stringify hwell nofun
  have hsame : Json.stringify (.obj [("office", (FoundOffice.ofRow row).toValue)]) = some text := by
    rw [← htext]
    simp only [Json.stringify, Json.serialize, Json.memberTexts, FoundOffice.toValue,
      FoundOffice.ofRow, hidText, hpublicText]
  refine ⟨rfl, text, _, ?_, officeOf_iff.mpr rfl, ?_⟩
  · show jsonText (.obj [("office", (FoundOffice.ofRow row).toValue)]) = _
    unfold jsonText
    rw [hsame]
    rfl
  · rw [hparse]
    simp only [Json.kept, Json.keptMembers, FoundOffice.toValue, FoundOffice.ofRow, hidKept,
      hpublicKept, hidDefined, hpublicDefined, hidRead, hpublicRead, if_false, reduceCtorEq]

theorem ofRow_project (row : Sql.Row Scalar) :
    FoundOffice.ofRow (Sql.Row.project OfficeDAO.officeByPublicId.columns row) = .ofRow row := by
  have hlookup : ∀ name ∈ OfficeDAO.officeByPublicId.columns,
      (Sql.Row.project OfficeDAO.officeByPublicId.columns row).lookup name = row.lookup name :=
    fun name hname => Sql.Row.lookup_project hname row
  have hid := hlookup "office_id" (by decide)
  have hpublicId := hlookup "public_id" (by decide)
  unfold FoundOffice.ofRow column
  rw [hid, hpublicId]

theorem officesOf_eq_select (connection : Connection) (publicId : String) :
    officesOf connection publicId = connection.database.select ⟨"common", "office"⟩
      OfficeDAO.officeByPublicId.key (.text publicId) := by
  refine List.filter_congr fun row _ => ?_
  exact Bool.eq_iff_iff.mpr (decide_eq_true_iff.trans beq_iff_eq.symm)

/-- The query of the DAO selects the rows with the public id. -/
theorem query_officeByPublicId (connection : Connection) (uuid : String) :
    connection.query OfficeDAO.officeByPublicId (.text uuid) =
      match connection.fault ⟨"common", "office"⟩ with
      | some e => .error e
      | none => (connection.castUuid uuid).map fun publicId =>
          (officesOf connection publicId).map
            (Sql.Row.project OfficeDAO.officeByPublicId.columns) := by
  have htable : OfficeDAO.officeByPublicId.tableName connection.defaultSchema =
      ⟨"common", "office"⟩ := rfl
  have hcast : connection.castParameter OfficeDAO.officeByPublicId.cast (.text uuid) =
      Scalar.text <$> connection.castUuid uuid := rfl
  unfold Connection.query
  rw [htable, hcast]
  simp only [officesOf_eq_select]
  cases connection.fault ⟨"common", "office"⟩ with
  | some e => rfl
  | none => cases connection.castUuid uuid <;> rfl

theorem exactlyOne_map {α β γ : Type} (f : β → γ) (g : α → β) (xs : List α) :
    OfficeDAO.exactlyOne f (xs.map g) = OfficeDAO.exactlyOne (fun x => f (g x)) xs := by
  match xs with
  | [] => rfl
  | [_] => rfl
  | _ :: _ :: _ => rfl

theorem parse_empty : ∃ e, Json.parse "" = .error e := ⟨_, rfl⟩

theorem getUserFromRequest_of_userOf {user : Value} (h : UserOf event user) :
    getUserFromRequest event = .ok user := by
  obtain ⟨data, hdata, hparse, -⟩ := h
  have hne : data ≠ "" := by
    rintro rfl
    obtain ⟨e, he⟩ := parse_empty
    rw [he] at hparse
    cases hparse
  unfold getUserFromRequest
  rw [show _ = some data from hdata]
  simp only [beq_iff_eq, hne, if_false, hparse]

/-- The data are absent or falsy, raise, or are a user. -/
theorem user_cases (event : APIGatewayEvent) :
    NoUser event ∨ UserRaises event ∨ ∃ user, UserOf event user := by
  cases hdata : event.requestContext.authorizer.bind (·.data) with
  | none =>
    apply Or.inl
    intro data h
    unfold AuthorizerData at h
    rw [hdata] at h
    cases h
  | some data =>
    have huniq : ∀ data', AuthorizerData event data' → data' = data := by
      intro data' h
      unfold AuthorizerData at h
      rw [hdata] at h
      exact (Option.some.inj h).symm
    by_cases hempty : data = ""
    · refine Or.inl fun data' h => Or.inl ?_
      rw [huniq data' h, hempty]
    · cases hparse : Json.parse data with
      | error e => exact Or.inr (Or.inl ⟨data, e, hdata, hempty, hparse⟩)
      | ok v =>
        cases htruthy : v.truthy with
        | true => exact Or.inr (Or.inr ⟨v, data, hdata, hparse, htruthy⟩)
        | false =>
          refine Or.inl fun data' h => Or.inr ⟨v, ?_, htruthy⟩
          rw [huniq data' h, hparse]

theorem processRequest_of_noUser (h : NoUser event) :
    processRequest env event =
      .error (.httpError (CreateError.notFound "Entity not found.")) := by
  unfold processRequest getUserFromRequest
  cases hdata : event.requestContext.authorizer.bind (·.data) with
  | none => rfl
  | some data =>
    by_cases hempty : data = ""
    · subst hempty
      rfl
    · obtain ⟨v, hparse, hfalsy⟩ := (h data hdata).resolve_left hempty
      simp only [beq_iff_eq, hempty, if_false, hparse]
      simp only [Except.mapError, bind, Except.bind, hfalsy]
      rfl

theorem processRequest_of_userRaises (h : UserRaises event) :
    processRequest env event = .error (.httpError CreateError.internalServerError) := by
  obtain ⟨data, e, hdata, hne, hparse⟩ := h
  unfold processRequest getUserFromRequest
  rw [show _ = some data from hdata]
  simp only [beq_iff_eq, hne, if_false, hparse]
  cases e <;> rfl

theorem processRequest_of_userOf {user : Value} (h : UserOf event user) :
    processRequest env event = Except.mapError reclassify
      (findOffice env (event.queryStringParameters.bind fun parameters => parameters.lookup "id")
        >>= respond user) := by
  have huser := getUserFromRequest_of_userOf h
  obtain ⟨data, -, -, htruthy⟩ := h
  unfold processRequest
  rw [huser]
  simp only [Except.mapError, bind, Except.bind, htruthy]
  rfl

theorem findOffice_of_invalid (h : ∀ uuid, ¬ ValidId env event uuid) :
    findOffice env (event.queryStringParameters.bind fun parameters => parameters.lookup "id") =
      .ok none := by
  unfold findOffice
  split
  · rfl
  · rename_i uuid hid
    have hvalid : env.validate uuid = false := by
      have hnot := h uuid
      unfold ValidId at hnot
      simpa [hid] using hnot
    rw [hvalid, Bool.and_false]
    rfl

theorem findOffice_of_valid {uuid : String} (h : ValidId env event uuid) :
    findOffice env (event.queryStringParameters.bind fun parameters => parameters.lookup "id") =
      OfficeDAO.findOneByPublicId env.getConnection uuid none := by
  obtain ⟨hid, hvalid⟩ := h
  have hne : uuid ≠ "" := by
    rintro rfl
    rw [env.validate_empty] at hvalid
    cases hvalid
  unfold findOffice
  rw [hid]
  have hguard : (uuid != "" && env.validate uuid) = true := by
    rw [hvalid, Bool.and_true, bne_iff_ne]
    exact hne
  exact if_pos hguard

theorem findOneByPublicId_of_yields {uuid : String} {rows : List (Sql.Row Scalar)}
    (h : LookupYields env uuid rows) :
    OfficeDAO.findOneByPublicId env.getConnection uuid none =
      .ok (OfficeDAO.exactlyOne .ofRow rows) := by
  obtain ⟨connection, publicId, hconnection, hfault, hcast, rfl⟩ := h
  have hquery := query_officeByPublicId connection uuid
  rw [hfault, hcast] at hquery
  have hfound := OfficeDAO.findOneByPublicId_of_rows hquery
  rw [exactlyOne_map] at hfound
  simp only [ofRow_project] at hfound
  rw [hconnection]
  exact hfound

theorem findOneByPublicId_of_raises {uuid : String} (h : LookupRaises env uuid) :
    ∃ e, OfficeDAO.findOneByPublicId env.getConnection uuid none = .error (.other e) := by
  unfold OfficeDAO.findOneByPublicId OfficeDAO.manager
  rcases h with ⟨e, hconnection⟩ | ⟨connection, e, hconnection, hraises⟩
  · rw [hconnection]
    exact ⟨e, rfl⟩
  · have hquery : ∃ e, connection.query OfficeDAO.officeByPublicId (.text uuid) = .error e := by
      rw [query_officeByPublicId]
      rcases hraises with hfault | hcast
      · exact ⟨e, by rw [hfault]⟩
      · cases connection.fault ⟨"common", "office"⟩ with
        | some e' => exact ⟨e', rfl⟩
        | none => exact ⟨e, by rw [hcast]; rfl⟩
    obtain ⟨e', hquery⟩ := hquery
    rw [hconnection]
    simp only [bind, Except.bind, hquery]
    exact ⟨e', rfl⟩

/-- With a user and the rows of a valid id, the rows decide. -/
theorem processRequest_of_rows {user : Value} {uuid : String} {rows : List (Sql.Row Scalar)}
    (huser : UserOf event user) (hid : ValidId env event uuid)
    (hrows : LookupYields env uuid rows) :
    processRequest env event =
      Except.mapError reclassify (respond user (OfficeDAO.exactlyOne .ofRow rows)) := by
  rw [processRequest_of_userOf huser, findOffice_of_valid hid, findOneByPublicId_of_yields hrows]
  rfl

theorem processRequest_of_reaches {user : Value} {row : Sql.Row Scalar}
    (h : Reaches env event user row) :
    processRequest env event = Except.mapError reclassify (respond user (some (.ofRow row))) := by
  obtain ⟨uuid, hid, hrows⟩ := h.row
  exact processRequest_of_rows h.user hid hrows

theorem respond_of_view {user : Value} {office : FoundOffice}
    (h : Runtime.canView user office.toValue = .ok true) :
    respond user (some office) = .ok (officeResponse office) := by
  unfold respond
  simp only [h]
  rfl

theorem respond_of_refused {user : Value} {office : FoundOffice}
    (h : Runtime.canView user office.toValue = .ok false) :
    respond user (some office) =
      .error (.httpError (CreateError.notFound "Entity not found")) := by
  unfold respond
  simp only [h]
  rfl

theorem respond_of_raised {user : Value} {office : FoundOffice} {e : Ecma.Error}
    (h : Runtime.canView user office.toValue = .error e) :
    respond user (some office) = .error (thrownOf e) := by
  unfold respond
  simp only [h]
  rfl

theorem exactlyOne_of_length_ne {α β : Type} (f : α → β) {xs : List α} (h : xs.length ≠ 1) :
    OfficeDAO.exactlyOne f xs = none := by
  match xs with
  | [] => rfl
  | [_] => exact absurd rfl h
  | _ :: _ :: _ => rfl

theorem processRequest_of_granted {user : Value} {row : Sql.Row Scalar}
    (h : Granted env event user row) :
    processRequest env event = .ok (officeResponse (.ofRow row)) := by
  rw [processRequest_of_reaches h.1, respond_of_view (decides_iff.mp h.2)]
  rfl

theorem processRequest_of_missing (h : Missing env event) :
    ∃ message, processRequest env event = .error (.httpError (CreateError.notFound message)) := by
  cases h with
  | user h => exact ⟨_, processRequest_of_noUser h⟩
  | id user huser h =>
    refine ⟨"Entity not found", ?_⟩
    rw [processRequest_of_userOf huser, findOffice_of_invalid h]
    rfl
  | row user uuid rows huser hid hrows h =>
    refine ⟨"Entity not found", ?_⟩
    rw [processRequest_of_rows huser hid hrows, exactlyOne_of_length_ne _ h]
    rfl
  | refused user row hreach h =>
    refine ⟨"Entity not found", ?_⟩
    rw [processRequest_of_reaches hreach, respond_of_refused (decides_iff.mp h)]
    rfl

theorem processRequest_of_raised (h : Raised env event) :
    processRequest env event = .error (.httpError CreateError.internalServerError) := by
  cases h with
  | user h => exact processRequest_of_userRaises h
  | lookup user uuid huser hid h =>
    obtain ⟨e, he⟩ := findOneByPublicId_of_raises h
    rw [processRequest_of_userOf huser, findOffice_of_valid hid, he]
    rfl
  | authorization user row e hreach h =>
    rw [processRequest_of_reaches hreach, respond_of_raised (decides_iff.mp h)]
    cases e <;> rfl

/-- For a user of the declared types the typed authorizer decides. -/
theorem processRequest_of_typed_user {v : Value} {user : HasPermission.UserDetails}
    {row : Sql.Row Scalar} {publicId : String} (hreach : Reaches env event v row)
    (huser : Runtime.UserReadsAs v user) (hrow : row.lookup "public_id" = some (.text publicId)) :
    processRequest env event =
      if Authorizer.SampleAuthorizer.canView user ⟨none, publicId⟩ then
        .ok (officeResponse (.ofRow row))
      else .error (.httpError (CreateError.notFound "Entity not found")) := by
  have hcolumn : column row "public_id" = .str publicId := by
    unfold column
    rw [hrow]
    rfl
  have hprop : (FoundOffice.ofRow row).toValue.prop "publicId" = .ok (.str publicId) :=
    congrArg Except.ok hcolumn
  have hview : Runtime.canView v (FoundOffice.ofRow row).toValue =
      .ok (Authorizer.SampleAuthorizer.canView user ⟨none, publicId⟩) :=
    Runtime.canView_readsAs huser hprop
  rw [processRequest_of_reaches hreach]
  cases hdecision : Authorizer.SampleAuthorizer.canView user ⟨none, publicId⟩ with
  | true =>
    rw [hdecision] at hview
    rw [respond_of_view hview]
    rfl
  | false =>
    rw [hdecision] at hview
    rw [respond_of_refused hview]
    rfl

theorem lookup_cases (env : Environment) (uuid : String) :
    LookupRaises env uuid ∨ ∃ rows, LookupYields env uuid rows := by
  cases hconnection : env.getConnection with
  | error e => exact Or.inl (Or.inl ⟨e, hconnection⟩)
  | ok connection =>
    cases hfault : connection.fault ⟨"common", "office"⟩ with
    | some e => exact Or.inl (Or.inr ⟨connection, e, hconnection, Or.inl hfault⟩)
    | none =>
      cases hcast : connection.castUuid uuid with
      | error e => exact Or.inl (Or.inr ⟨connection, e, hconnection, Or.inr hcast⟩)
      | ok publicId => exact Or.inr ⟨_, connection, publicId, hconnection, hfault, hcast, rfl⟩

theorem request_cases (env : Environment) (event : APIGatewayEvent) :
    (∃ user row, Granted env event user row) ∨ Missing env event ∨ Raised env event := by
  rcases user_cases event with hnone | hraises | ⟨user, huser⟩
  · exact Or.inr (Or.inl (.user hnone))
  · exact Or.inr (Or.inr (.user hraises))
  · by_cases hid : ∃ uuid, ValidId env event uuid
    · obtain ⟨uuid, hid⟩ := hid
      rcases lookup_cases env uuid with hraises | ⟨rows, hrows⟩
      · exact Or.inr (Or.inr (.lookup user uuid huser hid hraises))
      · by_cases hlength : rows.length = 1
        · obtain ⟨row, rfl⟩ := List.length_eq_one_iff.mp hlength
          have hreach : Reaches env event user row := ⟨huser, uuid, hid, hrows⟩
          have hdecides := decides_iff.mpr (Eq.refl
            (Runtime.canView user (FoundOffice.ofRow row).toValue))
          cases hview : Runtime.canView user (FoundOffice.ofRow row).toValue with
          | error e =>
            rw [hview] at hdecides
            exact Or.inr (Or.inr (.authorization user row e hreach hdecides))
          | ok view =>
            rw [hview] at hdecides
            cases view with
            | true => exact Or.inl ⟨user, row, hreach, hdecides⟩
            | false => exact Or.inr (Or.inl (.refused user row hreach hdecides))
        · exact Or.inr (Or.inl (.row user uuid rows huser hid hrows hlength))
    · exact Or.inr (Or.inl (.id user huser (not_exists.mp hid)))

theorem processRequest_ok_iff {response : APIGatewayProxyResult} :
    processRequest env event = .ok response ↔
      ∃ user row, Granted env event user row ∧ response = officeResponse (.ofRow row) := by
  constructor
  · intro h
    rcases request_cases env event with ⟨user, row, hgranted⟩ | hmissing | hraised
    · rw [processRequest_of_granted hgranted] at h
      exact ⟨user, row, hgranted, (Except.ok.inj h).symm⟩
    · obtain ⟨message, hthrown⟩ := processRequest_of_missing hmissing
      rw [hthrown] at h
      cases h
    · rw [processRequest_of_raised hraised] at h
      cases h
  · intro hgrants
    rcases hgrants with ⟨user, row, hgranted, rfl⟩
    exact processRequest_of_granted hgranted

theorem processRequest_throws {thrown : Thrown} (h : processRequest env event = .error thrown) :
    (Missing env event ∧ ∃ message, thrown = .httpError (CreateError.notFound message)) ∨
      (Raised env event ∧ thrown = .httpError CreateError.internalServerError) := by
  rcases request_cases env event with ⟨user, row, hgranted⟩ | hmissing | hraised
  · rw [processRequest_of_granted hgranted] at h
    cases h
  · obtain ⟨message, hthrown⟩ := processRequest_of_missing hmissing
    rw [hthrown] at h
    exact Or.inl ⟨hmissing, message, (Except.error.inj h).symm⟩
  · rw [processRequest_of_raised hraised] at h
    exact Or.inr ⟨hraised, (Except.error.inj h).symm⟩

theorem processRequest_notFound_iff :
    (∃ e, processRequest env event = .error (.httpError e) ∧ e.statusCode = 404) ↔
      Missing env event := by
  constructor
  · intro hnotFound
    rcases hnotFound with ⟨e, h, hstatus⟩
    rcases processRequest_throws h with ⟨hmissing, -⟩ | ⟨-, he⟩
    · exact hmissing
    · cases he
      cases hstatus
  · intro h
    obtain ⟨message, hthrown⟩ := processRequest_of_missing h
    exact ⟨_, hthrown, rfl⟩

theorem processRequest_internal_iff :
    (∃ e, processRequest env event = .error (.httpError e) ∧ e.statusCode = 500) ↔
      Raised env event := by
  constructor
  · intro hinternal
    rcases hinternal with ⟨e, h, hstatus⟩
    rcases processRequest_throws h with ⟨-, message, he⟩ | ⟨hraised, -⟩
    · cases he
      cases hstatus
    · exact hraised
  · intro h
    exact ⟨_, processRequest_of_raised h, rfl⟩

/-- For every event and every database: the office of the one row exactly where it
is granted, 404 where something is missing or refused, 500 where something raised,
and nothing else. -/
theorem processRequest_outcome (env : Environment) (event : APIGatewayEvent) :
    ((∃ response, processRequest env event = .ok response) ↔
      ∃ user row, Granted env event user row) ∧
    (∀ response user row, processRequest env event = .ok response →
      Granted env event user row → CarriesOffice row response) ∧
    (∀ thrown, processRequest env event = .error thrown →
      ∃ e, thrown = .httpError e ∧ (e.statusCode = 404 ∨ e.statusCode = 500)) ∧
    ((∃ e, processRequest env event = .error (.httpError e) ∧ e.statusCode = 404) ↔
      Missing env event) ∧
    ((∃ e, processRequest env event = .error (.httpError e) ∧ e.statusCode = 500) ↔
      Raised env event) := by
  have hgranted : (∃ response, processRequest env event = .ok response) ↔
      ∃ user row, Granted env event user row := by
    constructor
    · intro hresponse
      rcases hresponse with ⟨response, h⟩
      obtain ⟨user, row, hgranted, -⟩ := processRequest_ok_iff.mp h
      exact ⟨user, row, hgranted⟩
    · intro hgrants
      rcases hgrants with ⟨user, row, h⟩
      exact ⟨_, processRequest_of_granted h⟩
  have hcarries : ∀ response user row, processRequest env event = .ok response →
      Granted env event user row → CarriesOffice row response := by
    intro response user row h hrow
    rw [processRequest_of_granted hrow] at h
    cases h
    exact carriesOffice_officeResponse row
  have hthrown : ∀ thrown, processRequest env event = .error thrown →
      ∃ e, thrown = .httpError e ∧ (e.statusCode = 404 ∨ e.statusCode = 500) := by
    intro thrown h
    rcases processRequest_throws h with ⟨-, message, he⟩ | ⟨-, he⟩
    · exact ⟨_, he, Or.inl rfl⟩
    · exact ⟨_, he, Or.inr rfl⟩
  exact ⟨hgranted, hcarries, hthrown, processRequest_notFound_iff, processRequest_internal_iff⟩

end Ovipro.Sample

import OviproApi.ProcessRequest

/-! The offices that a user may not view leave no trace in the answers: what
the handler function answers is the same in all states of the database that
agree on the viewable offices. -/

namespace Ovipro.Sample
open Ecma ErrorHandling Dao

variable {env : Environment} {event : APIGatewayEvent}

/-- Whether the user may view the office of a table row. -/
def views (user : Value) (row : Sql.Row Scalar) : Bool :=
  match Runtime.canView user (FoundOffice.ofRow row).toValue with
  | .ok view => view
  | .error _ => false

def officeTable (connection : Connection) : Sql.TableName :=
  OfficeDAO.officeByPublicId.tableName connection.defaultSchema

theorem exactlyOne_perm {α β : Type} (f : α → β) {xs ys : List α} (h : xs.Perm ys) :
    OfficeDAO.exactlyOne f xs = OfficeDAO.exactlyOne f ys := by
  by_cases hlength : xs.length = 1
  · obtain ⟨x, rfl⟩ := List.length_eq_one_iff.mp hlength
    rw [List.perm_singleton.mp h.symm]
  · have hlength' : ys.length ≠ 1 := by rwa [← h.length_eq]
    rw [exactlyOne_of_length_ne f hlength, exactlyOne_of_length_ne f hlength']

/-- All rows with one public id are decided alike. -/
theorem canView_of_matches {user : Value} {text : String} {row : Sql.Row Scalar}
    (h : Sql.Row.matches OfficeDAO.officeByPublicId.key (Scalar.text text) row = true) :
    Runtime.canView user (FoundOffice.ofRow row).toValue =
      Runtime.canView user (.obj [("publicId", .str text)]) := by
  have hlookup : row.lookup "public_id" = some (.text text) := beq_iff_eq.mp h
  have hprop : (FoundOffice.ofRow row).toValue.prop "publicId" = .ok (.str text) := by
    have hcolumn : column row "public_id" = .str text := by
      unfold column
      rw [hlookup]
      rfl
    show Except.ok (column row "public_id") = _
    rw [hcolumn]
  exact Runtime.canView_congr user hprop

/-- The answer on the rows of a refused public id. -/
theorem respond_of_refused_rows {user : Value} {rows : List (Sql.Row Scalar)}
    (h : ∀ row ∈ rows, Runtime.canView user (FoundOffice.ofRow row).toValue = .ok false) :
    respond user (OfficeDAO.exactlyOne .ofRow rows) =
      .error (.httpError (CreateError.notFound "Entity not found")) := by
  by_cases hlength : rows.length = 1
  · obtain ⟨row, rfl⟩ := List.length_eq_one_iff.mp hlength
    exact respond_of_refused (h row (List.mem_cons_self ..))
  · rw [exactlyOne_of_length_ne _ hlength]
    rfl

theorem matches_of_mem {connection : Connection} {text : String} {row : Sql.Row Scalar}
    (h : row ∈ officesOf connection text) :
    Sql.Row.matches OfficeDAO.officeByPublicId.key (Scalar.text text) row = true := by
  rw [officesOf_eq_select] at h
  exact (List.mem_filter.mp h).2

theorem canView_of_selected {user : Value} {connection : Connection} {text : String}
    {row : Sql.Row Scalar} (h : row ∈ officesOf connection text) :
    Runtime.canView user (FoundOffice.ofRow row).toValue =
      Runtime.canView user (.obj [("publicId", .str text)]) :=
  canView_of_matches (matches_of_mem h)

section
variable {user : Value} {connection connection' : Connection} {text : String}

/-- Two tables with the same viewable rows have the same rows of a viewable id. -/
theorem respond_of_viewed
    (hsame : ((connection.database.rows ⟨"common", "office"⟩).filter (views user)).Perm
      ((connection'.database.rows ⟨"common", "office"⟩).filter (views user)))
    (hview : Runtime.canView user (.obj [("publicId", .str text)]) = .ok true) :
    respond user (OfficeDAO.exactlyOne .ofRow (officesOf connection text)) =
      respond user (OfficeDAO.exactlyOne .ofRow (officesOf connection' text)) := by
  have hvisible : ∀ row, Sql.Row.matches OfficeDAO.officeByPublicId.key (Scalar.text text) row =
      true → views user row = true := by
    intro row hrow
    unfold views
    rw [canView_of_matches hrow, hview]
  have hperm := Sql.Database.select_perm_of_visible hsame hvisible
  rw [← officesOf_eq_select, ← officesOf_eq_select] at hperm
  rw [exactlyOne_perm _ hperm]

/-- What is selected by one public id from two tables with the same viewable
rows is answered alike. -/
theorem respond_of_same_views (hshape : Runtime.UserShape user)
    (hsame : ((connection.database.rows ⟨"common", "office"⟩).filter (views user)).Perm
      ((connection'.database.rows ⟨"common", "office"⟩).filter (views user))) (text : String) :
    respond user (OfficeDAO.exactlyOne .ofRow (officesOf connection text)) =
      respond user (OfficeDAO.exactlyOne .ofRow (officesOf connection' text)) := by
  have hreturns : ∃ view, Runtime.canView user (.obj [("publicId", .str text)]) = .ok view :=
    Runtime.canView_returns hshape ⟨_, rfl⟩
  obtain ⟨view, hview⟩ := hreturns
  cases view with
  -- all selected rows are viewable, so both states select the same ones
  | true => exact respond_of_viewed hsame hview
  -- no selected row is, so the answer is 404 whatever their number
  | false =>
    have hrefused : ∀ connection : Connection, ∀ row ∈ officesOf connection text,
        Runtime.canView user (FoundOffice.ofRow row).toValue = .ok false := by
      intro connection row hrow
      rw [canView_of_selected hrow, hview]
    rw [respond_of_refused_rows (hrefused connection),
      respond_of_refused_rows (hrefused connection')]

end

theorem userOf_of_shape {user : Value} {data : String} (hdata : AuthorizerData event data)
    (hparse : Json.parse data = .ok user) (hshape : Runtime.UserShape user) :
    UserOf event user := by
  obtain ⟨permissions, hpermissions⟩ := hshape.globalPermissions
  have hobject := Value.isObject_of_prop_ne hpermissions (by simp)
  exact ⟨data, hdata, hparse, hobject.truthy⟩

/-- The environment with one connection, in a given state of its database. -/
def Environment.inState (env : Environment) (connection : Connection)
    (database : Sql.Database Scalar) (fault : Sql.TableName → Option String) : Environment :=
  { env with getConnection := .ok { connection with database := database, fault := fault } }

/-- No existence oracle: in two states of the database that agree on the
offices which the user may view, the answer is the same, as long as the lookup
raises in neither. -/
theorem processRequest_no_oracle (env : Environment) (event : APIGatewayEvent)
    (connection : Connection) (database database' : Sql.Database Scalar)
    (fault fault' : Sql.TableName → Option String) (data : String) (user : Value)
    (hdata : AuthorizerData event data) (hparse : Json.parse data = .ok user)
    (hshape : Runtime.UserShape user)
    (hsame : ((database.rows (officeTable connection)).filter (views user)).Perm
      ((database'.rows (officeTable connection)).filter (views user)))
    (hlookup : ∀ uuid, ValidId env event uuid →
      ¬ LookupRaises (env.inState connection database fault) uuid ∧
        ¬ LookupRaises (env.inState connection database' fault') uuid) :
    processRequest (env.inState connection database fault) event =
      processRequest (env.inState connection database' fault') event := by
  have huser := userOf_of_shape hdata hparse hshape
  by_cases hid : ∃ uuid, ValidId env event uuid
  · obtain ⟨uuid, hid⟩ := hid
    obtain ⟨hraises, hraises'⟩ := hlookup uuid hid
    obtain ⟨rows, hrows⟩ := (lookup_cases _ uuid).resolve_left hraises
    obtain ⟨rows', hrows'⟩ := (lookup_cases _ uuid).resolve_left hraises'
    have hout : processRequest (env.inState connection database fault) event = _ :=
      processRequest_of_rows huser hid hrows
    have hout' : processRequest (env.inState connection database' fault') event = _ :=
      processRequest_of_rows huser hid hrows'
    rw [hout, hout']
    obtain ⟨c, text, hc, -, htext, rfl⟩ := hrows
    obtain ⟨c', text', hc', -, htext', rfl⟩ := hrows'
    cases hc
    cases hc'
    cases htext.symm.trans htext'
    exact congrArg _ (respond_of_same_views hshape hsame text)
  · have hinvalid := not_exists.mp hid
    have hnone : findOffice (env.inState connection database fault) _ = .ok none :=
      findOffice_of_invalid hinvalid
    have hnone' : findOffice (env.inState connection database' fault') _ = .ok none :=
      findOffice_of_invalid hinvalid
    rw [processRequest_of_userOf huser, processRequest_of_userOf huser, hnone, hnone']

/-- A user without any permission. -/
def stranger : Value :=
  .obj [("globalPermissions", .arr []),
    ("organizationPermissionTree", .obj [("customerGroups", .arr [])])]

def strangerData : String :=
  "\x7b\"globalPermissions\":[],\"organizationPermissionTree\":\x7b\"customerGroups\":[]\x7d\x7d"

theorem parse_strangerData : Json.parse strangerData = .ok stranger := by decide +kernel

theorem stranger_shape : Runtime.UserShape stranger where
  globalPermissions := ⟨[], rfl⟩
  tree := ⟨_, [], rfl, rfl, by simp⟩

def strangerEvent : APIGatewayEvent where
  headers := some [("Request-ID", "9031d1c5-7d40-41dd-b2b8-7919a2fc4fe9")]
  queryStringParameters := some [("id", "351ba7bb-c79a-49b7-927c-87398500f180")]
  requestContext := ⟨some ⟨some strangerData⟩⟩
  body := .null

def sampleEnvironment : Environment where
  validate uuid := uuid == "351ba7bb-c79a-49b7-927c-87398500f180"
  validate_empty := by decide
  getConnection := .ok OfficeDAO.emptyConnection

def oneOfficeDatabase : Sql.Database Scalar :=
  OfficeDAO.emptyConnection.database.insert ⟨"common", "office"⟩
    [("office_id", .number 1), ("public_id", .text "351ba7bb-c79a-49b7-927c-87398500f180")] 1

theorem lookup_sampleEnvironment (database : Sql.Database Scalar) (uuid : String) :
    ¬ LookupRaises (sampleEnvironment.inState OfficeDAO.emptyConnection database
      fun _ => none) uuid := by
  intro hraises
  rcases hraises with ⟨e, h⟩ | ⟨connection, e, hconnection, hfault | hcast⟩
  · cases h
  · cases hconnection
    cases hfault
  · cases hconnection
    cases hcast

theorem processRequest_no_oracle_stranger :
    processRequest (sampleEnvironment.inState OfficeDAO.emptyConnection
        OfficeDAO.emptyConnection.database fun _ => none) strangerEvent =
      processRequest (sampleEnvironment.inState OfficeDAO.emptyConnection
        oneOfficeDatabase fun _ => none) strangerEvent :=
  processRequest_no_oracle sampleEnvironment strangerEvent OfficeDAO.emptyConnection
    OfficeDAO.emptyConnection.database oneOfficeDatabase (fun _ => none) (fun _ => none)
    strangerData stranger rfl parse_strangerData stranger_shape (.of_eq rfl)
    fun uuid _ => ⟨lookup_sampleEnvironment _ uuid, lookup_sampleEnvironment _ uuid⟩

end Ovipro.Sample

import OviproApi.Ecma.Value
import OviproApi.SampleAuthorizer
import OviproApi.Sql

/-! The office DAO over the tables of the database, and which of its own writes
it reads back. -/

namespace Ovipro.Dao
open Ecma ErrorHandling Authorizer

inductive Scalar
  | number (n : Int)
  | text (s : String)
  deriving DecidableEq, Repr

def Scalar.toValue : Scalar → Value
  | number n => .num (.ofInt n)
  | text s => .str s

/-- A TypeORM connection to a database: its unqualified names are those of
`defaultSchema`, `castUuid` is the text of a uuid after a cast, and a statement
on a table may fail for reasons outside the data. -/
structure Connection where
  database : Sql.Database Scalar
  defaultSchema : String
  castUuid : String → Except String String
  fault : Sql.TableName → Option String

namespace Connection

def castParameter (connection : Connection) (cast : Option String) (parameter : Scalar) :
    Except String Scalar :=
  match cast, parameter with
  | none, _ => pure parameter
  | some _, .text s => .text <$> connection.castUuid s
  | some type, .number _ => throw s!"cannot cast type bigint to {type}"

def query (connection : Connection) (statement : Sql.Select) (parameter : Scalar) :
    Except String (List (Sql.Row Scalar)) := do
  let table := statement.tableName connection.defaultSchema
  match connection.fault table with
  | some e => throw e
  | none =>
    let v ← connection.castParameter statement.cast parameter
    let rows := connection.database.select table statement.key v
    return rows.map (Sql.Row.project statement.columns)

end Connection

/-- A column of a row in the result of a query, `null` if it has no value. -/
def column (row : Sql.Row Scalar) (name : String) : Value :=
  (row.lookup name).elim .null Scalar.toValue

/-- An office as the DAO returns it. -/
structure FoundOffice where
  id : Value
  publicId : Value

def FoundOffice.toValue (office : FoundOffice) : Value :=
  .obj [("id", office.id), ("publicId", office.publicId)]

/-- A table row as the office that the DAO makes of it. -/
def FoundOffice.ofRow (row : Sql.Row Scalar) : FoundOffice where
  id := column row "office_id"
  publicId := column row "public_id"

namespace OfficeDAO

/-- The given entity manager, or that of a connection. -/
def manager (getConnection : Except String Connection)
    (transactionalEntityManager : Option Connection) : Except String Connection :=
  match transactionalEntityManager with
  | some manager => pure manager
  | none => getConnection

def publicIdByOfficeId : Sql.Select where
  columns := ["public_id"]
  schema := none
  table := "office"
  key := "id"
  cast := none

def officeByPublicId : Sql.Select where
  columns := ["office_id", "public_id"]
  schema := some "common"
  table := "office"
  key := "public_id"
  cast := some "uuid"

example : publicIdByOfficeId.text = "select public_id from office where id = $1;" := by decide

example : officeByPublicId.text =
    "select office_id, public_id from common.office where public_id = $1::uuid;" := by decide

/-- The result of a query that has exactly one row, `undefined` otherwise. -/
def exactlyOne {α β : Type} (f : α → β) : List α → Option β
  | [a] => some (f a)
  | _ => none

def findPublicIdByOfficeId (getConnection : Except String Connection) (officeId : Scalar)
    (transactionalEntityManager : Option Connection) : Except Thrown (Option Value) :=
  Except.mapError Thrown.other do
    let manager ← manager getConnection transactionalEntityManager
    let result ← manager.query publicIdByOfficeId officeId
    return exactlyOne (fun row => column row "public_id") result

def findOneByPublicId (getConnection : Except String Connection) (uuid : String)
    (transactionalEntityManager : Option Connection) : Except Thrown (Option FoundOffice) :=
  Except.mapError Thrown.other do
    let manager ← manager getConnection transactionalEntityManager
    let result ← manager.query officeByPublicId (.text uuid)
    return exactlyOne FoundOffice.ofRow result

/-- The table that the entity `SimpleOffice` is mapped to. -/
def simpleOfficeTable : Sql.TableName := ⟨"public", "simple_office"⟩

/-- Insert through the repository of `SimpleOffice`. An id that is not given is
generated by the identity column. -/
def insert (connection : Connection) (office : SimpleOffice) :
    Except Thrown (Scalar × Connection) :=
  Except.mapError Thrown.other do
    match connection.fault simpleOfficeTable with
    | some e => throw e
    | none =>
      let publicId ← connection.castUuid office.publicId
      let next := connection.database.identity simpleOfficeTable
      let id := office.id.getD next
      let row := [("id", .number id), ("public_id", .text publicId)]
      let identity := if office.id.isSome then next else next + 1
      let database := connection.database.insert simpleOfficeTable row identity
      return (.number id, { connection with database := database })

/-- A sequence of inserts, with the id that each of them returned. -/
def insertAll (connection : Connection) :
    List SimpleOffice → Except Thrown (List (SimpleOffice × Scalar) × Connection)
  | [] => return ([], connection)
  | office :: offices => do
    let (id, connection) ← insert connection office
    let (inserted, connection) ← insertAll connection offices
    return ((office, id) :: inserted, connection)

/-- What the DAO answers after offices were inserted with the ids it returned. -/
structure ReadsOwnWrites (connection : Connection) (inserted : List (SimpleOffice × Scalar)) :
    Prop where
  publicId : ∀ office id, (office, id) ∈ inserted →
    findOneByPublicId (.ok connection) office.publicId none =
      .ok (some ⟨id.toValue, .str office.publicId⟩)
  officeId : ∀ office id, (office, id) ∈ inserted →
    findPublicIdByOfficeId (.ok connection) id none = .ok (some (.str office.publicId))
  otherPublicId : ∀ uuid text, connection.castUuid uuid = .ok text →
    (∀ office id, (office, id) ∈ inserted → connection.castUuid office.publicId ≠ .ok text) →
    findOneByPublicId (.ok connection) uuid none = .ok none
  otherOfficeId : ∀ officeId, (∀ office, (office, officeId) ∉ inserted) →
    findPublicIdByOfficeId (.ok connection) officeId none = .ok none

/-- A connection to an empty database whose statements do not fail. -/
structure Fresh (connection : Connection) : Prop where
  empty : ∀ table, connection.database.rows table = []
  reliable : ∀ table, connection.fault table = none

theorem query_ok_iff {connection : Connection} {statement : Sql.Select} {parameter : Scalar}
    {rows : List (Sql.Row Scalar)} :
    connection.query statement parameter = .ok rows ↔
      connection.fault (statement.tableName connection.defaultSchema) = none ∧
        ∃ v, connection.castParameter statement.cast parameter = .ok v ∧
          rows = (connection.database.select (statement.tableName connection.defaultSchema)
            statement.key v).map (Sql.Row.project statement.columns) := by
  unfold Connection.query
  cases hfault : connection.fault (statement.tableName connection.defaultSchema) with
  | some e => simp [hfault]
  | none =>
    cases hcast : connection.castParameter statement.cast parameter with
    | error e => simp [hfault, bind, Except.bind]
    | ok v => simp [hfault, bind, Except.bind, pure, Except.pure, eq_comm]

theorem findOneByPublicId_of_rows {connection : Connection} {uuid : String}
    {rows : List (Sql.Row Scalar)}
    (h : connection.query officeByPublicId (.text uuid) = .ok rows) :
    findOneByPublicId (.ok connection) uuid none = .ok (exactlyOne .ofRow rows) := by
  unfold findOneByPublicId manager
  simp only [bind, Except.bind, h]
  rfl

theorem findPublicIdByOfficeId_of_rows {connection : Connection} {officeId : Scalar}
    {rows : List (Sql.Row Scalar)} (h : connection.query publicIdByOfficeId officeId = .ok rows) :
    findPublicIdByOfficeId (.ok connection) officeId none =
      .ok (exactlyOne (fun row => column row "public_id") rows) := by
  unfold findPublicIdByOfficeId manager
  simp only [bind, Except.bind, h]
  rfl

/-- What an insert does: one more row in its own table. -/
theorem insert_spec {connection connection' : Connection} {office : SimpleOffice} {id : Scalar}
    (h : insert connection office = .ok (id, connection')) :
    ∃ row identity, connection' = { connection with
      database := connection.database.insert simpleOfficeTable row identity } := by
  unfold insert at h
  cases hfault : connection.fault simpleOfficeTable with
  | some e =>
    rw [hfault] at h
    cases h
  | none =>
    cases hcast : connection.castUuid office.publicId with
    | error e =>
      rw [hfault, hcast] at h
      cases h
    | ok publicId =>
      rw [hfault, hcast] at h
      cases h
      exact ⟨_, _, rfl⟩

theorem insert_succeeds {connection : Connection} {office : SimpleOffice} {text : String}
    (hfault : connection.fault simpleOfficeTable = none)
    (hcast : connection.castUuid office.publicId = .ok text) :
    ∃ id connection', insert connection office = .ok (id, connection') := by
  unfold insert
  rw [hfault, hcast]
  exact ⟨_, _, rfl⟩

/-- The tables that inserts leave alone, and what they keep of the connection. -/
structure Unchanged (connection connection' : Connection) : Prop where
  frame : connection.database.FrameExcept simpleOfficeTable connection'.database
  defaultSchema : connection'.defaultSchema = connection.defaultSchema
  castUuid : connection'.castUuid = connection.castUuid
  fault : connection'.fault = connection.fault

theorem Unchanged.refl (connection : Connection) : Unchanged connection connection :=
  ⟨.refl _ _, rfl, rfl, rfl⟩

theorem Unchanged.trans {c c' c'' : Connection} (h : Unchanged c c') (h' : Unchanged c' c'') :
    Unchanged c c'' :=
  ⟨h.frame.trans h'.frame, h'.defaultSchema.trans h.defaultSchema,
    h'.castUuid.trans h.castUuid, h'.fault.trans h.fault⟩

theorem insert_unchanged {connection connection' : Connection} {office : SimpleOffice} {id : Scalar}
    (h : insert connection office = .ok (id, connection')) : Unchanged connection connection' := by
  obtain ⟨row, identity, rfl⟩ := insert_spec h
  exact ⟨Sql.Database.insert_frame _ _ _ _, rfl, rfl, rfl⟩

theorem insertAll_cons {connection : Connection} {office : SimpleOffice}
    {offices : List SimpleOffice} {result : List (SimpleOffice × Scalar) × Connection} :
    insertAll connection (office :: offices) = .ok result ↔
      ∃ id connection' inserted, insert connection office = .ok (id, connection') ∧
        insertAll connection' offices = .ok (inserted, result.2) ∧
        result.1 = (office, id) :: inserted := by
  rw [insertAll]
  constructor
  · intro h
    cases hinsert : insert connection office with
    | error e =>
      rw [hinsert] at h
      cases h
    | ok first =>
      obtain ⟨id, connection'⟩ := first
      rw [hinsert] at h
      cases hrest : insertAll connection' offices with
      | error e =>
        simp only [bind, Except.bind, hrest] at h
        cases h
      | ok rest =>
        simp only [bind, Except.bind, hrest] at h
        cases h
        exact ⟨id, connection', rest.1, rfl, hrest, rfl⟩
  · intro hsteps
    rcases hsteps with ⟨id, connection', inserted, hinsert, hrest, hresult⟩
    rw [hinsert]
    simp only [bind, Except.bind, hrest]
    rw [← hresult]
    rfl

/-- Inserts change no table but that of the entity. -/
theorem insertAll_unchanged {connection connection' : Connection} {offices : List SimpleOffice}
    {inserted : List (SimpleOffice × Scalar)}
    (h : insertAll connection offices = .ok (inserted, connection')) :
    Unchanged connection connection' := by
  induction offices generalizing connection inserted with
  | nil =>
    cases h
    exact .refl _
  | cons office offices ih =>
    obtain ⟨id, next, rest, hinsert, hrest, -⟩ := insertAll_cons.mp h
    exact (insert_unchanged hinsert).trans (ih hrest)

theorem insertAll_succeeds {connection : Connection} {offices : List SimpleOffice}
    (hfault : connection.fault simpleOfficeTable = none)
    (hcast : ∀ office ∈ offices, ∃ text, connection.castUuid office.publicId = .ok text) :
    ∃ inserted connection', insertAll connection offices = .ok (inserted, connection') := by
  induction offices generalizing connection with
  | nil => exact ⟨[], connection, rfl⟩
  | cons office offices ih =>
    obtain ⟨text, htext⟩ := hcast office (List.mem_cons_self ..)
    obtain ⟨id, next, hinsert⟩ := insert_succeeds hfault htext
    have hkept := insert_unchanged hinsert
    have hnext : next.fault simpleOfficeTable = none := by rw [hkept.fault, hfault]
    have hcasts : ∀ office ∈ offices, ∃ text, next.castUuid office.publicId = .ok text := by
      intro o ho
      rw [hkept.castUuid]
      exact hcast o (List.mem_cons_of_mem _ ho)
    obtain ⟨inserted, connection', hrest⟩ := ih hnext hcasts
    exact ⟨(office, id) :: inserted, connection',
      insertAll_cons.mpr ⟨id, next, inserted, hinsert, hrest, rfl⟩⟩

/-- Both finders read tables that no insert writes. -/
theorem tableName_ne (connection : Connection) :
    officeByPublicId.tableName connection.defaultSchema ≠ simpleOfficeTable ∧
      publicIdByOfficeId.tableName connection.defaultSchema ≠ simpleOfficeTable := by
  have hname : "office" ≠ "simple_office" := by decide
  constructor
  · exact fun h => hname (congrArg Sql.TableName.name h)
  · exact fun h => hname (congrArg Sql.TableName.name h)

theorem query_after_inserts {connection connection' : Connection} (hfresh : Fresh connection)
    (h : Unchanged connection connection') {statement : Sql.Select} {parameter v : Scalar}
    (htable : statement.tableName connection.defaultSchema ≠ simpleOfficeTable)
    (hv : connection.castParameter statement.cast parameter = .ok v) :
    connection'.query statement parameter = .ok [] := by
  have hcast : connection'.castParameter statement.cast parameter = .ok v := by
    unfold Connection.castParameter at hv ⊢
    rw [h.castUuid]
    exact hv
  have hfault : connection'.fault (statement.tableName connection'.defaultSchema) = none := by
    rw [h.fault]
    exact hfresh.reliable _
  have hselect := h.frame.select htable statement.key v
  have hempty : connection.database.select (statement.tableName connection.defaultSchema)
      statement.key v = [] := by
    unfold Sql.Database.select
    rw [hfresh.empty]
    rfl
  refine query_ok_iff.mpr ⟨hfault, v, hcast, ?_⟩
  rw [h.defaultSchema, hselect, hempty]
  rfl

theorem findOneByPublicId_after_inserts {connection connection' : Connection}
    (hfresh : Fresh connection) (h : Unchanged connection connection') {uuid text : String}
    (htext : connection.castUuid uuid = .ok text) :
    findOneByPublicId (.ok connection') uuid none = .ok none := by
  have hcast : connection.castParameter officeByPublicId.cast (.text uuid) = .ok (.text text) := by
    show Scalar.text <$> connection.castUuid uuid = _
    rw [htext]
    rfl
  have hquery := query_after_inserts hfresh h (tableName_ne connection).1 hcast
  exact findOneByPublicId_of_rows hquery

theorem findPublicIdByOfficeId_after_inserts {connection connection' : Connection}
    (hfresh : Fresh connection) (h : Unchanged connection connection') (officeId : Scalar) :
    findPublicIdByOfficeId (.ok connection') officeId none = .ok none := by
  have hcast : connection.castParameter publicIdByOfficeId.cast officeId = .ok officeId := rfl
  have hquery := query_after_inserts hfresh h (tableName_ne connection).2 hcast
  exact findPublicIdByOfficeId_of_rows hquery

/-- On a fresh database the DAO reads back what it inserted only where it
inserted nothing. -/
theorem readsOwnWrites_iff {connection : Connection} (hfresh : Fresh connection)
    (offices : List SimpleOffice)
    (hcast : ∀ office ∈ offices, ∃ text, connection.castUuid office.publicId = .ok text) :
    (∀ inserted connection', insertAll connection offices = .ok (inserted, connection') →
      ReadsOwnWrites connection' inserted) ↔ offices = [] := by
  constructor
  · intro h
    obtain ⟨inserted, connection', hrun⟩ := insertAll_succeeds (hfresh.reliable _) hcast
    have hreads := h inserted connection' hrun
    have hkept := insertAll_unchanged hrun
    cases offices with
    | nil => rfl
    | cons office offices =>
      obtain ⟨id, next, rest, -, -, hinserted⟩ := insertAll_cons.mp hrun
      obtain ⟨text, htext⟩ := hcast office (List.mem_cons_self ..)
      have hmem : (office, id) ∈ inserted := by
        rw [show inserted = _ from hinserted]
        exact List.mem_cons_self ..
      -- the first office is already not found
      have hfound := hreads.publicId office id hmem
      rw [findOneByPublicId_after_inserts hfresh hkept htext] at hfound
      cases hfound
  · rintro rfl inserted connection' hrun
    cases hrun
    have hkept := Unchanged.refl connection
    exact
      { publicId := by simp
        officeId := by simp
        otherPublicId := fun uuid text htext _ =>
          findOneByPublicId_after_inserts hfresh hkept htext
        otherOfficeId := fun officeId _ =>
          findPublicIdByOfficeId_after_inserts hfresh hkept officeId }

def emptyConnection : Connection where
  database := ⟨fun _ => [], fun _ => 1⟩
  defaultSchema := "public"
  castUuid := .ok
  fault _ := none

def sampleOffice : SimpleOffice := ⟨none, "351ba7bb-c79a-49b7-927c-87398500f180"⟩

theorem emptyConnection_fresh : Fresh emptyConnection := ⟨fun _ => rfl, fun _ => rfl⟩

theorem readsOwnWrites_iff_sampleOffice :
    (∀ inserted connection', insertAll emptyConnection [sampleOffice] = .ok (inserted, connection') →
      ReadsOwnWrites connection' inserted) ↔ [sampleOffice] = [] :=
  readsOwnWrites_iff emptyConnection_fresh [sampleOffice] fun office _ => ⟨office.publicId, rfl⟩

theorem sampleOffice_not_found :
    ¬ ∀ (connection : Connection) (offices : List SimpleOffice), Fresh connection →
      (∀ office ∈ offices, ∃ text, connection.castUuid office.publicId = .ok text) →
      (offices.map (·.publicId)).Nodup →
      ∀ inserted connection', insertAll connection offices = .ok (inserted, connection') →
        ReadsOwnWrites connection' inserted := by
  intro h
  have hrun : ∃ connection', insertAll emptyConnection [sampleOffice] =
      .ok ([(sampleOffice, .number 1)], connection') := ⟨_, rfl⟩
  obtain ⟨connection', hrun⟩ := hrun
  have hreads := h emptyConnection [sampleOffice] emptyConnection_fresh
    (fun office _ => ⟨office.publicId, rfl⟩) (by simp) _ _ hrun
  have hkept := insertAll_unchanged hrun
  have hnone : findOneByPublicId (.ok connection') sampleOffice.publicId none = .ok none :=
    findOneByPublicId_after_inserts emptyConnection_fresh hkept rfl
  have hfound := hreads.publicId sampleOffice (.number 1) (List.mem_cons_self ..)
  rw [hnone] at hfound
  cases hfound

end OfficeDAO
end Ovipro.Dao

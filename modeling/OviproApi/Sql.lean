import Mathlib.Data.List.Perm.Basic

/-! Tables of rows that are selected by the value of one column. -/

namespace Sql

structure TableName where
  schema : String
  name : String
  deriving DecidableEq, Repr

/-- The columns of a row with their values; a column that is null is left out. -/
abbrev Row (V : Type) := List (String × V)

/-- The rows of every table and the value its identity column gets next. -/
structure Database (V : Type) where
  rows : TableName → List (Row V)
  identity : TableName → Int

/-- A select statement on one table with an equality on one column. -/
structure Select where
  columns : List String
  schema : Option String
  table : String
  key : String
  cast : Option String
  deriving DecidableEq, Repr

def Select.text (statement : Select) : String :=
  "select " ++ ", ".intercalate statement.columns ++ " from " ++
    (statement.schema.elim "" (· ++ ".")) ++ statement.table ++ " where " ++ statement.key ++
    " = $1" ++ (statement.cast.elim "" ("::" ++ ·)) ++ ";"

/-- A name without a schema is looked up in the default schema of the connection. -/
def Select.tableName (statement : Select) (defaultSchema : String) : TableName :=
  ⟨statement.schema.getD defaultSchema, statement.table⟩

section
variable {V : Type}

def Row.project (columns : List String) (row : Row V) : Row V :=
  row.filter fun cell => columns.contains cell.1

theorem Row.lookup_project {columns : List String} {column : String} (h : column ∈ columns)
    (row : Row V) : (row.project columns).lookup column = row.lookup column := by
  induction row with
  | nil => rfl
  | cons cell row ih =>
    obtain ⟨name, v⟩ := cell
    unfold project at ih ⊢
    rw [List.filter_cons, List.lookup_cons]
    by_cases hname : column = name
    · subst hname
      simp [h]
    · have hbeq : (column == name) = false := by simpa using hname
      rw [hbeq]
      split
      · rw [List.lookup_cons, hbeq]
        exact ih
      · exact ih

def Row.matches [DecidableEq V] (key : String) (v : V) (row : Row V) : Bool :=
  row.lookup key == some v

namespace Database

def insert (db : Database V) (table : TableName) (row : Row V) (identity : Int) : Database V where
  rows t := if t = table then db.rows table ++ [row] else db.rows t
  identity t := if t = table then identity else db.identity t

/-- Nothing but the given table differs. -/
def FrameExcept (table : TableName) (db db' : Database V) : Prop :=
  ∀ t, t ≠ table → db'.rows t = db.rows t

theorem FrameExcept.refl (table : TableName) (db : Database V) : FrameExcept table db db :=
  fun _ _ => rfl

theorem FrameExcept.trans {table : TableName} {db db' db'' : Database V}
    (h : FrameExcept table db db') (h' : FrameExcept table db' db'') :
    FrameExcept table db db'' :=
  fun t ht => (h' t ht).trans (h t ht)

theorem insert_frame (db : Database V) (table : TableName) (row : Row V) (identity : Int) :
    FrameExcept table db (db.insert table row identity) :=
  fun _ ht => if_neg ht

variable [DecidableEq V]

def select (db : Database V) (table : TableName) (key : String) (v : V) : List (Row V) :=
  (db.rows table).filter (Row.matches key v)

theorem FrameExcept.select {table t : TableName} {db db' : Database V}
    (h : FrameExcept table db db') (ht : t ≠ table) (key : String) (v : V) :
    db'.select t key v = db.select t key v := by
  unfold Database.select
  rw [h t ht]

/-- A selection whose rows are all visible does not depend on the invisible rows. -/
theorem select_perm_of_visible {db db' : Database V} {table : TableName} {visible : Row V → Bool}
    (h : ((db.rows table).filter visible).Perm ((db'.rows table).filter visible))
    {key : String} {v : V} (hvisible : ∀ row, Row.matches key v row = true → visible row = true) :
    (db.select table key v).Perm (db'.select table key v) := by
  have hselect : ∀ rows : List (Row V),
      (rows.filter visible).filter (Row.matches key v) = rows.filter (Row.matches key v) := by
    intro rows
    rw [List.filter_filter]
    congr 1
    funext row
    cases hrow : Row.matches key v row with
    | true => simp [hvisible row hrow]
    | false => rfl
  unfold select
  rw [← hselect (db.rows table), ← hselect (db'.rows table)]
  exact h.filter _

end Database
end
end Sql

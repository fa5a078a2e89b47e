import Dmlf.Table.Stored

/-!
# Queries with parameters

A program changes and reads stored tables by queries whose texts have placeholders `?`; the values
for them come with the query, in the order of the placeholders.  A comparison with `NULL` is
neither true nor false, and a row is selected if its condition is true.

* `Query.exec`, `transaction` : what queries do to a database, and when they fail.
* `StoredTable.updateRows_ofRows`, `insertRow_ofRows`, `upsertRow_ofRows`, `selectRows_ofRows` :
  what they do to the rows of a table whose columns are the fields of a record.
-/

namespace Dmlf

/-- The values of a database, as far as queries look at them. -/
structure Dialect (ν : Type*) where
  null : ν
  /-- `a = b`, if neither of them is `NULL`. -/
  eq : ν → ν → Option Bool
  /-- `a < b`, if neither of them is `NULL`. -/
  lt : ν → ν → Option Bool
  /-- The value of a serial number. -/
  number : ℕ → ν

/-- `AND`: false if one side is false, also if the other one is unknown. -/
def andKnown : Option Bool → Option Bool → Option Bool
  | some false, _ => some false
  | _, some false => some false
  | some true, some true => some true
  | _, _ => none

@[simp] theorem andKnown_some (a b : Bool) : andKnown (some a) (some b) = some (a && b) := by
  cases a <;> cases b <;> rfl

/-- What stands behind `WHERE`, with placeholders for the values. -/
inductive Condition (κ : Type*) where
  /-- No `WHERE` at all. -/
  | always
  /-- `column = ?`. -/
  | eq (column : κ)
  /-- `column < ?`. -/
  | lt (column : κ)
  /-- `column NOT IN (?, ..., ?)`, with `n` placeholders. -/
  | notIn (column : κ) (n : ℕ)
  | and (p q : Condition κ)

namespace Condition

variable {κ ν : Type*}

/-- The number of placeholders. -/
def arity : Condition κ → ℕ
  | .always => 0
  | .eq _ | .lt _ => 1
  | .notIn _ n => n
  | .and p q => p.arity + q.arity

/-- The columns that are compared. -/
def columns : Condition κ → List κ
  | .always => []
  | .eq column | .lt column | .notIn column _ => [column]
  | .and p q => p.columns ++ q.columns

/-- The condition for a row, which has these values in the columns. -/
def eval (sql : Dialect ν) (read : κ → ν) : Condition κ → List ν → Option Bool
  | .always, _ => some true
  | .eq column, params => sql.eq (read column) (params.headD sql.null)
  | .lt column, params => sql.lt (read column) (params.headD sql.null)
  | .notIn column _, params =>
    params.foldr (fun v known => andKnown ((sql.eq (read column) v).map not) known) (some true)
  | .and p q, params =>
    andKnown (p.eval sql read (params.take p.arity)) (q.eval sql read (params.drop p.arity))

end Condition

/-- The column that tells the rows of a table apart. -/
inductive KeyColumn (κ : Type*) where
  /-- `PRIMARY KEY`. -/
  | primary (column : κ)
  /-- `INTEGER PRIMARY KEY AUTOINCREMENT`, of which no row gives a value itself. -/
  | serial (column : κ)

/-- A query that changes a table. -/
inductive Query (τ κ : Type*) where
  /-- `UPDATE table SET column = ?, ... WHERE ...`. -/
  | update (table : τ) (columns : List κ) (condition : Condition κ)
  /-- `INSERT INTO table (column, ...) VALUES (?, ...)`. -/
  | insert (table : τ) (columns : List κ)
  /-- An `INSERT` with `ON CONFLICT(key) DO UPDATE SET column=excluded.column, ...`. -/
  | upsert (table : τ) (columns : List κ) (key : κ) (overwritten : List κ)

namespace StoredTable

variable {κ ν : Type*} [DecidableEq κ]

/-- The value of a row in a column. -/
def readColumn (null : ν) (columns : List κ) (row : List ν) (column : κ) : ν :=
  ((columns.zip row).lookup column).getD null

/-- The row with new values in some columns. -/
def setColumns (columns : List κ) (assignments : List (κ × ν)) (row : List ν) : List ν :=
  List.zipWith (fun column v => (assignments.lookup column).getD v) columns row

/-- Of two values for a column the first one counts, as if it had been written last. -/
theorem setColumns_append (columns : List κ) (as bs : List (κ × ν)) (row : List ν) :
    setColumns columns (as ++ bs) row = setColumns columns as (setColumns columns bs row) := by
  induction columns generalizing row with
  | nil => rfl
  | cons c columns ih =>
    cases row with
    | nil => rfl
    | cons v row =>
      have hv : ((as ++ bs).lookup c).getD v = (as.lookup c).getD ((bs.lookup c).getD v) := by
        rw [List.lookup_append]
        cases as.lookup c <;> rfl
      simp only [setColumns, List.zipWith_cons_cons, hv] at ih ⊢
      rw [ih row]

theorem setColumns_nil (columns : List κ) {row : List ν} (h : row.length = columns.length) :
    setColumns columns [] row = row := by
  induction columns generalizing row with
  | nil => exact (List.length_eq_zero_iff.1 h).symm
  | cons c columns ih =>
    cases row with
    | nil => cases h
    | cons v row => exact congrArg (v :: ·) (ih (Nat.succ.inj h))

variable (sql : Dialect ν) (t : StoredTable κ ν)

theorem length_setColumns {assignments : List (κ × ν)} {row : List ν} (h : row ∈ t.rows) :
    (setColumns t.columns assignments row).length = t.columns.length := by
  rw [setColumns, List.length_zipWith, t.width row h, Nat.min_self]

/-- The row meets the condition. -/
def meets (condition : Condition κ) (params : List ν) (row : List ν) : Bool :=
  condition.eval sql (readColumn sql.null t.columns row) params = some true

/-- Overwrite columns of the rows that meet the condition. -/
def updateRows (assignments : List (κ × ν)) (condition : Condition κ) (params : List ν) :
    StoredTable κ ν where
  columns := t.columns
  rows := t.rows.map fun row =>
    if t.meets sql condition params row then setColumns t.columns assignments row else row
  width := by
    intro row' hrow'
    obtain ⟨row, hrow, rfl⟩ := List.mem_map.1 hrow'
    split
    · exact t.length_setColumns hrow
    · exact t.width row hrow

/-- The row that an insert of these values adds; a serial column has the next number. -/
def newRow (key : KeyColumn κ) (assignments : List (κ × ν)) : List ν :=
  t.columns.map fun column =>
    match assignments.lookup column, key with
    | some v, _ => v
    | none, .serial column' => if column = column' then sql.number (t.rows.length + 1) else sql.null
    | none, .primary _ => sql.null

theorem length_newRow (key : KeyColumn κ) (assignments : List (κ × ν)) :
    (t.newRow sql key assignments).length = t.columns.length :=
  List.length_map _

/-- A row with this key is there. -/
def hasKey (column : κ) (row : List ν) : Bool :=
  t.rows.any fun row' => sql.eq (readColumn sql.null t.columns row' column)
    (readColumn sql.null t.columns row column) = some true

/-- Add a row. -/
def addRow (row : List ν) (h : row.length = t.columns.length) : StoredTable κ ν where
  columns := t.columns
  rows := t.rows ++ [row]
  width := by
    intro row' hrow'
    rcases List.mem_append.1 hrow' with hrow' | hrow'
    · exact t.width row' hrow'
    · exact List.mem_singleton.1 hrow' ▸ h

/-- An insert of these values; `none` if the key is taken. -/
def insertRow (key : KeyColumn κ) (assignments : List (κ × ν)) : Option (StoredTable κ ν) :=
  let row := t.newRow sql key assignments
  let t' := t.addRow row (t.length_newRow sql key assignments)
  match key with
  | .primary column => if t.hasKey sql column row then none else some t'
  | .serial _ => some t'

/-- An insert of these values that overwrites columns of the row with the same key, if there is
one. -/
def upsertRow (column : κ) (assignments : List (κ × ν)) (overwritten : List κ) :
    StoredTable κ ν :=
  let row := t.newRow sql (.primary column) assignments
  let excluded := readColumn sql.null t.columns row
  if t.hasKey sql column row then
    t.updateRows sql (overwritten.map fun c => (c, excluded c)) (.eq column) [excluded column]
  else t.addRow row (t.length_newRow sql (.primary column) assignments)

/-- The rows that meet the condition, read by the names of the columns. -/
def selectRows (condition : Condition κ) (params : List ν) : List (List (κ × ν)) :=
  (t.rows.filter (t.meets sql condition params)).map t.columns.zip

end StoredTable

namespace Query

variable {τ κ ν : Type*} [DecidableEq τ] [DecidableEq κ] (sql : Dialect ν) (keys : τ → KeyColumn κ)

/-- Perform a query with its parameters.  It fails if the number of parameters is wrong, the table
or a column is not there, or the key of a new row is taken. -/
def exec (db : StoredTables τ κ ν) (params : List ν) : Query τ κ → Option (StoredTables τ κ ν)
  | .update table columns condition =>
    (db table).bind fun t =>
      if params.length = columns.length + condition.arity ∧
          ∀ c ∈ columns ++ condition.columns, c ∈ t.columns then
        some (Function.update db table (some (t.updateRows sql (columns.zip params) condition
          (params.drop columns.length))))
      else none
  | .insert table columns =>
    (db table).bind fun t =>
      if params.length = columns.length ∧ ∀ c ∈ columns, c ∈ t.columns then
        (t.insertRow sql (keys table) (columns.zip params)).map fun t =>
          Function.update db table (some t)
      else none
  | .upsert table columns key overwritten =>
    (db table).bind fun t =>
      if params.length = columns.length ∧ ∀ c ∈ columns ++ key :: overwritten, c ∈ t.columns then
        some (Function.update db table (some (t.upsertRow sql key (columns.zip params)
          overwritten)))
      else none

/-- `SELECT * FROM table WHERE ...`. -/
def select (db : StoredTables τ κ ν) (table : τ) (condition : Condition κ) (params : List ν) :
    Option (List (List (κ × ν))) :=
  (db table).bind fun t =>
    if params.length = condition.arity ∧ ∀ c ∈ condition.columns, c ∈ t.columns then
      some (t.selectRows sql condition params)
    else none

end Query

/-- Perform queries, each with its parameters, one after the other; all or none of them. -/
def transaction {τ κ ν : Type*} [DecidableEq τ] [DecidableEq κ] (sql : Dialect ν)
    (keys : τ → KeyColumn κ) (db : StoredTables τ κ ν) (queries : List (Query τ κ × List ν)) :
    Option (StoredTables τ κ ν) :=
  queries.foldlM (fun db x => x.1.exec sql keys db x.2) db

/-! ### Rows of records -/

namespace StoredTable

section OfRows

variable {κ ν ρ : Type*} [DecidableEq κ] {sql : Dialect ν} {columns : List κ} {values : ρ → List ν}
  {h : ∀ r, (values r).length = columns.length} {rows : List ρ}

theorem updateRows_ofRows {assignments : List (κ × ν)} {condition : Condition κ} {params : List ν}
    {p : ρ → Bool} {f : ρ → ρ}
    (hp : ∀ r, (condition.eval sql (readColumn sql.null columns (values r)) params = some true) ↔
      p r = true)
    (hf : ∀ r, setColumns columns assignments (values r) = values (f r)) :
    (ofRows columns values h rows).updateRows sql assignments condition params =
      ofRows columns values h (rows.map fun r => if p r then f r else r) := by
  ext1
  · rfl
  · simp only [updateRows, ofRows, meets, List.map_map]
    refine List.map_congr_left fun r _ => ?_
    simp only [Function.comp_apply, decide_eq_true_eq, hp, hf]
    split <;> rfl

theorem selectRows_ofRows {condition : Condition κ} {params : List ν} {p : ρ → Bool}
    (hp : ∀ r, (condition.eval sql (readColumn sql.null columns (values r)) params = some true) ↔
      p r = true) :
    (ofRows columns values h rows).selectRows sql condition params =
      (rows.filter p).map fun r => columns.zip (values r) := by
  simp only [selectRows, ofRows, List.filter_map, List.map_map]
  refine congrArg (List.map _) (List.filter_congr fun r _ => ?_)
  rw [Function.comp_apply, Bool.eq_iff_iff, ← hp r]
  exact decide_eq_true_iff

omit [DecidableEq κ] in
theorem addRow_ofRows {row : List ν} {r : ρ} (hrow : row = values r) (hlen) :
    (ofRows columns values h rows).addRow row hlen = ofRows columns values h (rows ++ [r]) := by
  ext1
  · rfl
  · simp [addRow, ofRows, hrow]

theorem hasKey_ofRows {column : κ} {row : List ν} {q : ρ → Bool}
    (hq : ∀ r, (sql.eq (readColumn sql.null columns (values r) column)
      (readColumn sql.null columns row column) = some true) ↔ q r = true) :
    (ofRows columns values h rows).hasKey sql column row = rows.any q := by
  simp only [hasKey, ofRows, List.any_map]
  refine congrArg (List.any rows) (funext fun r => ?_)
  rw [Function.comp_apply, Bool.eq_iff_iff, ← hq r]
  exact decide_eq_true_iff

variable {column : κ} {assignments : List (κ × ν)} {r : ρ} {q : ρ → Bool}

theorem insertRow_ofRows
    (hrow : (ofRows columns values h rows).newRow sql (.primary column) assignments = values r)
    (hq : ∀ r', (sql.eq (readColumn sql.null columns (values r') column)
      (readColumn sql.null columns (values r) column) = some true) ↔ q r' = true) :
    (ofRows columns values h rows).insertRow sql (.primary column) assignments =
      if rows.any q then none else some (ofRows columns values h (rows ++ [r])) := by
  have hkey : (ofRows columns values h rows).hasKey sql column (values r) = rows.any q :=
    hasKey_ofRows hq
  simp only [insertRow, hrow, hkey]
  split_ifs
  · rfl
  · exact congrArg some (addRow_ofRows rfl _)

/-- An insert of a record that has the next number. -/
theorem insertRow_serial_ofRows
    (hrow : (ofRows columns values h rows).newRow sql (.serial column) assignments = values r) :
    (ofRows columns values h rows).insertRow sql (.serial column) assignments =
      some (ofRows columns values h (rows ++ [r])) :=
  congrArg some (addRow_ofRows hrow _)

theorem upsertRow_ofRows {overwritten : List κ} {f : ρ → ρ}
    (hrow : (ofRows columns values h rows).newRow sql (.primary column) assignments = values r)
    (hq : ∀ r', (sql.eq (readColumn sql.null columns (values r') column)
      (readColumn sql.null columns (values r) column) = some true) ↔ q r' = true)
    (hf : ∀ r', setColumns columns
      (overwritten.map fun c => (c, readColumn sql.null columns (values r) c)) (values r') =
        values (f r')) :
    (ofRows columns values h rows).upsertRow sql column assignments overwritten =
      if rows.any q then ofRows columns values h (rows.map fun r' => if q r' then f r' else r')
      else ofRows columns values h (rows ++ [r]) := by
  have hkey : (ofRows columns values h rows).hasKey sql column (values r) = rows.any q :=
    hasKey_ofRows hq
  simp only [upsertRow, hrow, hkey]
  split_ifs
  · exact updateRows_ofRows hq hf
  · exact addRow_ofRows rfl _

end OfRows

end StoredTable

end Dmlf

import Mathlib.Data.List.Basic
import Mathlib.Logic.Function.Basic

/-!
# Stored tables and their migrations

A database file keeps tables under their names.  A table has columns and rows with a value for
each of them.  A migration is a list of statements, each of which creates a table unless it is
there, or adds a column and fails if it is there; a program that goes on after such a failure may
run its migration at every start.

* `StoredTable.dicts_addColumns` : a row keeps what it had, and gets `NULL` in new columns.
* `migrate_extends` : a migration only adds columns to the tables that are there.
* `migrate_migrate` : a migration that adds columns to tables it has created does nothing the
  second time.
-/

namespace Dmlf

/-- A table as it is stored, with columns in `κ` and values in `ν`. -/
structure StoredTable (κ ν : Type*) where
  columns : List κ
  /-- The rows, each with its values in the order of the columns. -/
  rows : List (List ν)
  width : ∀ row ∈ rows, row.length = columns.length

namespace StoredTable

variable {κ ν : Type*} (t : StoredTable κ ν)

@[ext] theorem ext {t t' : StoredTable κ ν} (hcolumns : t.columns = t'.columns)
    (hrows : t.rows = t'.rows) : t = t' := by
  cases t
  cases t'
  cases hcolumns
  cases hrows
  rfl

/-- A table without rows. -/
def new (columns : List κ) : StoredTable κ ν := ⟨columns, [], by simp⟩

/-- The table of the rows `rows`, whose values are given by `values`. -/
def ofRows {ρ : Type*} (columns : List κ) (values : ρ → List ν)
    (h : ∀ r, (values r).length = columns.length) (rows : List ρ) : StoredTable κ ν where
  columns := columns
  rows := rows.map values
  width := by
    intro row hrow
    obtain ⟨r, -, rfl⟩ := List.mem_map.1 hrow
    exact h r

/-- The rows as they are read by the names of the columns. -/
def dicts : List (List (κ × ν)) := t.rows.map t.columns.zip

/-- More columns, with the value `null` in all rows. -/
def addColumns (null : ν) (added : List κ) : StoredTable κ ν where
  columns := t.columns ++ added
  rows := t.rows.map fun row => row ++ added.map fun _ => null
  width := by
    intro row' hrow'
    obtain ⟨row, hrow, rfl⟩ := List.mem_map.1 hrow'
    simp [t.width row hrow]

variable {null : ν}

@[simp] theorem addColumns_nil : t.addColumns null [] = t := by
  ext1 <;> simp [addColumns]

@[simp] theorem addColumns_addColumns (added added' : List κ) :
    (t.addColumns null added).addColumns null added' = t.addColumns null (added ++ added') := by
  ext1 <;> simp [addColumns]

/-- **A row keeps what it had**, and gets `null` in the new columns. -/
theorem dicts_addColumns (added : List κ) :
    (t.addColumns null added).dicts = t.dicts.map (· ++ added.map fun c => (c, null)) := by
  have hzip : added.zip (added.map fun _ => null) = added.map fun c => (c, null) :=
    List.map_prod_left_eq_zip.symm
  rw [dicts, dicts, addColumns, List.map_map, List.map_map]
  refine List.map_congr_left fun row hrow => ?_
  rw [Function.comp_apply, List.zip_append (t.width row hrow).symm, hzip]
  rfl

/-- A column more, unless it is there. -/
def ensureColumn [DecidableEq κ] (null : ν) (column : κ) (t : StoredTable κ ν) :
    StoredTable κ ν :=
  if column ∈ t.columns then t else t.addColumns null [column]

theorem ensureColumn_of_notMem [DecidableEq κ] {column : κ} (h : column ∉ t.columns) :
    t.ensureColumn null column = t.addColumns null [column] := if_neg h

theorem ensureColumn_extends [DecidableEq κ] (null : ν) (column : κ) :
    ∃ added, t.ensureColumn null column = t.addColumns null added := by
  unfold ensureColumn
  split_ifs
  · exact ⟨[], t.addColumns_nil.symm⟩
  · exact ⟨[column], rfl⟩

theorem mem_columns_ensureColumn [DecidableEq κ] (null : ν) (column : κ) :
    column ∈ (t.ensureColumn null column).columns := by
  unfold ensureColumn
  split_ifs with hmem
  · exact hmem
  · exact List.mem_append_right _ (List.mem_singleton_self column)

end StoredTable

/-- A statement of a migration, about tables with names in `τ`. -/
inductive Statement (τ κ : Type*) where
  /-- `CREATE TABLE IF NOT EXISTS`. -/
  | createTable (name : τ) (columns : List κ)
  /-- `ALTER TABLE ... ADD COLUMN`. -/
  | addColumn (name : τ) (column : κ)

/-- The tables of a database, by their names. -/
abbrev StoredTables (τ κ ν : Type*) := τ → Option (StoredTable κ ν)

variable {τ κ ν : Type*} [DecidableEq τ] [DecidableEq κ] {null : ν}

namespace Statement

variable (null) in
/-- One statement; `none` if it fails, because its column is there or its table is not. -/
def exec (db : StoredTables τ κ ν) : Statement τ κ → Option (StoredTables τ κ ν)
  | .createTable name columns =>
    if (db name).isSome then some db
    else some (Function.update db name (some (.new columns)))
  | .addColumn name column =>
    (db name).bind fun t =>
      if column ∈ t.columns then none
      else some (Function.update db name (some (t.addColumns null [column])))

variable (null) in
/-- One statement, whose failure changes nothing. -/
def attempt (db : StoredTables τ κ ν) (s : Statement τ κ) : StoredTables τ κ ν :=
  (s.exec null db).getD db

/-- What the statement asks for is there. -/
def Done (db : StoredTables τ κ ν) : Statement τ κ → Prop
  | .createTable name _ => ∃ t, db name = some t
  | .addColumn name column => ∃ t, db name = some t ∧ column ∈ t.columns

variable {db : StoredTables τ κ ν} {s : Statement τ κ} {name : τ} {t : StoredTable κ ν}

theorem attempt_of_done (h : s.Done db) : s.attempt null db = db := by
  cases s with
  | createTable name columns =>
    obtain ⟨t, ht⟩ := h
    simp [attempt, exec, ht]
  | addColumn name column =>
    obtain ⟨t, ht, hmem⟩ := h
    simp [attempt, exec, ht, hmem]

variable (null name) in
/-- What a statement does to the table `name`, if there is one. -/
def on (t : Option (StoredTable κ ν)) : Statement τ κ → Option (StoredTable κ ν)
  | .createTable name' columns => if name' = name then some (t.getD (.new columns)) else t
  | .addColumn name' column =>
    if name' = name then t.map (StoredTable.ensureColumn null column) else t

/-- What a statement does to a table depends on that table only. -/
theorem attempt_apply (db : StoredTables τ κ ν) (s : Statement τ κ) (name : τ) :
    s.attempt null db name = s.on null name (db name) := by
  cases s with
  | createTable name' columns =>
    by_cases hname : name' = name
    · subst hname
      cases h : db name' <;> simp [attempt, exec, on, h]
    · cases h : db name' <;> simp [attempt, exec, on, h, hname, Ne.symm hname]
  | addColumn name' column =>
    cases h : db name' with
    | none =>
      by_cases hname : name' = name
      · subst hname
        simp [attempt, exec, on, h]
      · simp [attempt, exec, on, h, hname]
    | some t =>
      by_cases hname : name' = name
      · subst hname
        by_cases hmem : column ∈ t.columns <;>
          simp [attempt, exec, on, StoredTable.ensureColumn, h, hmem]
      · by_cases hmem : column ∈ t.columns <;>
          simp [attempt, exec, on, h, hmem, hname, Ne.symm hname]

variable (null) in
theorem attempt_extends (s : Statement τ κ) (h : db name = some t) :
    ∃ added, s.attempt null db name = some (t.addColumns null added) := by
  rw [attempt_apply, h]
  cases s with
  | createTable name' columns => exact ⟨[], by simp [on]⟩
  | addColumn name' column =>
    rw [on, Option.map_some]
    split_ifs
    · obtain ⟨added, hadded⟩ := t.ensureColumn_extends null column
      exact ⟨added, congrArg some hadded⟩
    · exact ⟨[], by rw [t.addColumns_nil]⟩

theorem Done.attempt (h : s.Done db) (s' : Statement τ κ) : s.Done (s'.attempt null db) := by
  cases s with
  | createTable name columns =>
    obtain ⟨t, ht⟩ := h
    obtain ⟨added, hadded⟩ := s'.attempt_extends null ht
    exact ⟨_, hadded⟩
  | addColumn name column =>
    obtain ⟨t, ht, hmem⟩ := h
    obtain ⟨added, hadded⟩ := s'.attempt_extends null ht
    exact ⟨_, hadded, List.mem_append_left _ hmem⟩

theorem done_createTable (name : τ) (columns : List κ) (db : StoredTables τ κ ν) :
    (createTable name columns).Done ((createTable name columns).attempt null db) :=
  ⟨_, (attempt_apply db _ name).trans (if_pos rfl)⟩

theorem done_addColumn (column : κ) (h : db name = some t) :
    (addColumn name column).Done ((addColumn name column).attempt null db) := by
  refine ⟨t.ensureColumn null column, ?_, t.mem_columns_ensureColumn null column⟩
  rw [attempt_apply, h, on, if_pos rfl, Option.map_some]

end Statement

/-! ### Migrations -/

variable (null) in
/-- The statements one after the other. -/
def migrate (db : StoredTables τ κ ν) (stmts : List (Statement τ κ)) : StoredTables τ κ ν :=
  stmts.foldl (fun db s => s.attempt null db) db

/-- Columns are added only to the tables in `created` and to those created before. -/
def Founded (created : List τ) : List (Statement τ κ) → Prop
  | [] => True
  | .createTable name _ :: stmts => Founded (name :: created) stmts
  | .addColumn name _ :: stmts => name ∈ created ∧ Founded created stmts

variable {db : StoredTables τ κ ν} {stmts : List (Statement τ κ)}

theorem migrate_apply (db : StoredTables τ κ ν) (stmts : List (Statement τ κ)) (name : τ) :
    migrate null db stmts name = stmts.foldl (Statement.on null name) (db name) := by
  induction stmts generalizing db with
  | nil => rfl
  | cons s stmts ih =>
    rw [List.foldl_cons, ← s.attempt_apply]
    exact ih (s.attempt null db)

/-- **A migration keeps all tables**, but for more columns. -/
theorem migrate_extends {name : τ} {t : StoredTable κ ν} (h : db name = some t)
    (stmts : List (Statement τ κ)) :
    ∃ added, migrate null db stmts name = some (t.addColumns null added) := by
  induction stmts generalizing db t with
  | nil => exact ⟨[], by rw [t.addColumns_nil]; exact h⟩
  | cons s stmts ih =>
    obtain ⟨added, hadded⟩ := s.attempt_extends null h
    obtain ⟨added', hadded'⟩ := ih hadded
    exact ⟨added ++ added', by rw [← t.addColumns_addColumns]; exact hadded'⟩

theorem migrate_of_done (h : ∀ s ∈ stmts, s.Done db) : migrate null db stmts = db := by
  induction stmts with
  | nil => rfl
  | cons s stmts ih =>
    rw [migrate, List.foldl_cons, Statement.attempt_of_done (h s List.mem_cons_self)]
    exact ih fun s' hs' => h s' (List.mem_cons_of_mem _ hs')

theorem Statement.Done.migrate {s : Statement τ κ} (h : s.Done db) (stmts : List (Statement τ κ)) :
    s.Done (Dmlf.migrate null db stmts) := by
  induction stmts generalizing db with
  | nil => exact h
  | cons s' stmts ih => exact ih (h.attempt s')

/-- After a founded migration all that it asks for is there. -/
theorem Founded.done {created : List τ} (hf : Founded created stmts)
    (hcreated : ∀ name ∈ created, ∃ t, db name = some t) :
    ∀ s ∈ stmts, s.Done (migrate null db stmts) := by
  induction stmts generalizing db created with
  | nil => rintro s ⟨⟩
  | cons s stmts ih =>
    have hs : s.Done (s.attempt null db) := by
      cases s with
      | createTable name columns => exact Statement.done_createTable name columns db
      | addColumn name column =>
        obtain ⟨t, ht⟩ := hcreated name hf.1
        exact Statement.done_addColumn column ht
    have hkept : ∀ name ∈ created, ∃ t, s.attempt null db name = some t := by
      intro name hname
      obtain ⟨t, ht⟩ := hcreated name hname
      obtain ⟨added, hadded⟩ := s.attempt_extends null ht
      exact ⟨_, hadded⟩
    have hrest : ∀ s' ∈ stmts, s'.Done (migrate null (s.attempt null db) stmts) := by
      cases s with
      | createTable name columns =>
        exact ih hf (List.forall_mem_cons.2 ⟨hs, hkept⟩)
      | addColumn name column => exact ih hf.2 hkept
    intro s' hs'
    rcases List.mem_cons.1 hs' with rfl | hs'
    · exact hs.migrate stmts
    · exact hrest s' hs'

/-- **Once is enough**: a founded migration does nothing the second time. -/
theorem migrate_migrate (hf : Founded [] stmts) (db : StoredTables τ κ ν) :
    migrate null (migrate null db stmts) stmts = migrate null db stmts :=
  migrate_of_done (hf.done (by rintro name ⟨⟩))

end Dmlf

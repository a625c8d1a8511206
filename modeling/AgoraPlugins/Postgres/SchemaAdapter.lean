import AgoraPlugins.Dict
import AgoraPlugins.Machine
import Mathlib.Data.Finset.Sort
import Mathlib.Data.String.Basic
import Mathlib.Logic.Function.Basic

/-!
# The schema adapter

`PostgresSchemaAdapter` sees to it, before a record is written, that the target table has
the columns of the record's schema. It looks whether the table is there, creates it if not,
and adds the columns that are missing; a schema it has applied it remembers, and skips all
of this for the next record with the same schema.

This is the adapter as a machine that takes a step at each statement, so that several
adapters can be interleaved. What a statement answers, and whether it fails, is the event.
The adapter goes by what it believes the table's columns to be: what
`information_schema.columns` told it, or, when it has created the table, the columns of the
schema. A name without a schema is looked up in all the schemas of the search path, while a
statement about the table means the first one there.

Two flags say whether tables are created and altered. With the first one off the adapter
never notes that there is a table, and then it alters none either.
-/

namespace SchemaAdapter

/-! ## Schemas and tables -/

/-- `DataType`. -/
inductive DataType where
  | string
  | integer
  | float
  | boolean
  | timestamp
  | json
  | bytes
  | null
  deriving DecidableEq

/-- `_postgres_type`. -/
def postgresType : DataType → String
  | .string => "TEXT"
  | .integer => "BIGINT"
  | .float => "DOUBLE PRECISION"
  | .boolean => "BOOLEAN"
  | .timestamp => "TIMESTAMPTZ"
  | .json => "JSONB"
  | .bytes => "BYTEA"
  | .null => "TEXT"

/-- A column of a record schema. -/
structure Column where
  dataType : DataType
  nullable : Bool := true
  deriving DecidableEq

/-- A table's name, with its schema if it has one. -/
inductive TableName (ν : Type) where
  | name (table : ν)
  | path (schema table : ν)
  deriving DecidableEq

/-- **A record schema.** -/
structure Schema (κ ν : Type) where
  table : TableName ν
  columns : Dict κ Column

/-- A column of a table. -/
structure PgColumn where
  type : String
  nullable : Bool
  deriving DecidableEq

/-- **A table**, with the keys of its `UNIQUE` constraint. -/
structure Table (κ : Type) where
  columns : Dict κ PgColumn
  unique : List κ := []

variable {κ ν : Type}

/-- What tables there are, by schema and name. -/
abbrev Database (κ ν : Type) := ν × ν → Option (Table κ)

/-- Where a table of this name is looked for. -/
def places (searchPath : List ν) : TableName ν → List (ν × ν)
  | .name table => searchPath.map (fun schema => (schema, table))
  | .path schema table => [(schema, table)]

section Names

variable [DecidableEq κ]

def Schema.names (schema : Schema κ ν) : Finset κ := schema.columns.keys.toFinset

def Table.names (table : Table κ) : Finset κ := table.columns.keys.toFinset

/-- `ADD COLUMN IF NOT EXISTS`. -/
def Table.addColumn (table : Table κ) (name : κ) (column : PgColumn) : Table κ :=
  if name ∈ table.names then table
  else { table with columns := table.columns.insert name column }

end Names

namespace Database

variable (db : Database κ ν) (at_ : List (ν × ν))

/-- The table that a statement means. -/
def target : Option (ν × ν) := at_.find? (fun place => (db place).isSome)

/-- `SELECT EXISTS (SELECT 1 FROM information_schema.tables …)`. -/
def tableExists : Bool := at_.any (fun place => (db place).isSome)

variable [DecidableEq κ]

/-- The columns of the table that a statement means. -/
def columnsOf : Finset κ := ((db.target at_).bind db).elim ∅ Table.names

/-- `SELECT column_name FROM information_schema.columns …`. -/
def lookupColumns : Finset κ :=
  (at_.map (fun place => (db place).elim ∅ Table.names)).foldr (· ∪ ·) ∅

variable [DecidableEq ν]

/-- `CREATE TABLE IF NOT EXISTS`: a name without a schema means the first one of the search
path. -/
def createTable (table : Table κ) : Option (Database κ ν) :=
  match at_ with
  | [] => none
  | place :: _ =>
    some (if (db place).isSome then db else Function.update db place (some table))

/-- `ALTER TABLE … ADD COLUMN IF NOT EXISTS`. -/
def alterTable (name : κ) (column : PgColumn) : Option (Database κ ν) := do
  let place ← db.target at_
  let table ← db place
  pure (Function.update db place (some (table.addColumn name column)))

end Database

/-! ## The adapter -/

/-- **The settings of an adapter.** `hash` is the hash of a schema, and the search path is
that of its connection. -/
structure Config (κ ν η : Type) where
  autoCreate : Bool := true
  autoAlter : Bool := true
  conflictKeys : List κ := []
  searchPath : List ν
  hash : Schema κ ν → η

/-- Where an adapter is: the statement it awaits. -/
inductive Pc (κ ν : Type) where
  | idle
  /-- whether the table exists -/
  | checking (schema : Schema κ ν)
  /-- the commit after this -/
  | committing (schema : Schema κ ν)
  /-- `load_existing_columns`, after the table was found or before it is altered -/
  | loading (schema : Schema κ ν) (found : Bool)
  | creating (schema : Schema κ ν)
  /-- `table_has_rows` -/
  | probing (schema : Schema κ ν)
  /-- the columns that are still to be added -/
  | altering (schema : Schema κ ν) (newColumns : List κ) (tableHasRows : Bool)

/-- **An adapter.** It keeps the hash of the schema it has applied; here the schema itself
is kept. -/
structure Adapter (κ ν : Type) where
  tableCreated : Bool := false
  existingColumns : Finset κ := ∅
  appliedSchema : Option (Schema κ ν) := none
  pc : Pc κ ν := .idle

/-- What happens to an adapter. -/
inductive Event (κ ν : Type) where
  /-- a record with this schema is to be written -/
  | apply (schema : Schema κ ν)
  /-- the statement is executed, and the transaction committed -/
  | executed
  /-- `table_has_rows` answers -/
  | rows (tableHasRows : Bool)
  /-- the statement or its commit fails, and is rolled back -/
  | fails
  /-- the task is cancelled, or the roll-back fails too -/
  | aborts

/-- An adapter and the database. -/
structure State (κ ν : Type) where
  db : Database κ ν
  adapter : Adapter κ ν := {}

namespace Adapter

variable [DecidableEq κ] (a : Adapter κ ν) (schema : Schema κ ν)

/-- The schema is recorded as applied. -/
def finish : Adapter κ ν := { a with pc := .idle, appliedSchema := some schema }

/-- `alter_table_add_columns`, from the existing columns on. -/
def alterNew : Adapter κ ν :=
  if schema.names \ a.existingColumns = ∅ then a.finish schema
  else { a with pc := .probing schema }

/-- **`alter_table_add_columns`**, up to the first statement. -/
def alterTableAddColumns (autoAlter : Bool) : Adapter κ ν :=
  if autoAlter = false ∨ a.tableCreated = false then a.finish schema
  else if a.existingColumns = ∅ then { a with pc := .loading schema false }
  else a.alterNew schema

/-- `load_existing_columns` returns, to where it was called. -/
def loaded (autoAlter found : Bool) : Adapter κ ν :=
  if found then a.alterTableAddColumns schema autoAlter else a.alterNew schema

end Adapter

section Step

variable [LinearOrder κ] [DecidableEq ν] {η : Type} [DecidableEq η] (cfg : Config κ ν η)

/-- Where the table of a schema is looked for. -/
def Config.places (schema : Schema κ ν) : List (ν × ν) :=
  SchemaAdapter.places cfg.searchPath schema.table

/-- A column as a statement declares it. -/
def pgColumn (column : Column) (tableHasRows : Bool) : PgColumn :=
  ⟨postgresType column.dataType, column.nullable || tableHasRows⟩

/-- The table that `CREATE TABLE` describes. -/
def Config.newTable (schema : Schema κ ν) : Table κ :=
  ⟨schema.columns.mapValues (fun column => pgColumn column false), cfg.conflictKeys⟩

/-- `ALTER TABLE` for one column. -/
def Config.addColumn (db : Database κ ν) (schema : Schema κ ν) (name : κ)
    (tableHasRows : Bool) : Option (Database κ ν) := do
  let column ← schema.columns.lookup name
  db.alterTable (cfg.places schema) name (pgColumn column tableHasRows)

/-- **A step of an adapter.** -/
def step (s : State κ ν) : Event κ ν → Option (State κ ν)
  | .apply schema =>
    match s.adapter.pc with
    | .idle =>
      if s.adapter.appliedSchema.map cfg.hash = some (cfg.hash schema) then none
      else if cfg.autoCreate then some { s with adapter.pc := .checking schema }
      else some { s with adapter := s.adapter.alterTableAddColumns schema cfg.autoAlter }
    | _ => none
  | .executed =>
    match s.adapter.pc with
    | .checking schema =>
      if s.db.tableExists (cfg.places schema) then
        some { s with adapter.tableCreated := true, adapter.pc := .committing schema }
      else if cfg.conflictKeys.any (fun key => key ∉ schema.names) then
        -- a `ValueError`
        some { s with adapter.pc := .idle }
      else some { s with adapter.pc := .creating schema }
    | .committing schema => some { s with adapter.pc := .loading schema true }
    | .loading schema found =>
      let a := { s.adapter with existingColumns := s.db.lookupColumns (cfg.places schema) }
      some { s with adapter := a.loaded schema cfg.autoAlter found }
    | .creating schema => do
      let db ← s.db.createTable (cfg.places schema) (cfg.newTable schema)
      let a := { s.adapter with tableCreated := true, existingColumns := schema.names }
      some ⟨db, a.alterTableAddColumns schema cfg.autoAlter⟩
    | .altering schema (name :: names) tableHasRows => do
      let db ← cfg.addColumn s.db schema name tableHasRows
      let a := { s.adapter with existingColumns := insert name s.adapter.existingColumns }
      match names with
      | [] => some ⟨db, a.finish schema⟩
      | _ => some ⟨db, { a with pc := .altering schema names tableHasRows }⟩
    | _ => none
  | .rows tableHasRows =>
    match s.adapter.pc with
    | .probing schema =>
      let newColumns := (schema.names \ s.adapter.existingColumns).sort (· ≤ ·)
      some { s with adapter.pc := .altering schema newColumns tableHasRows }
    | _ => none
  | .fails =>
    match s.adapter.pc with
    | .idle => none
    | .loading schema found =>
      -- only a warning is logged
      some { s with adapter := s.adapter.loaded schema cfg.autoAlter found }
    | _ => some { s with adapter.pc := .idle }
  | .aborts =>
    match s.adapter.pc with
    | .idle => none
    | _ => some { s with adapter.pc := .idle }

end Step

/-! ## What statements do -/

namespace Database

variable {db db' : Database κ ν} {at_ : List (ν × ν)} {place : ν × ν}

/-- The place that is found has a table. -/
theorem target_isSome (h : db.target at_ = some place) : (db place).isSome = true := by
  have hfound := List.find?_some h
  simpa using hfound

/-- **No table** means none at any of the places. -/
theorem tableExists_eq_false_iff :
    db.tableExists at_ = false ↔ ∀ place ∈ at_, db place = none := by
  simp [tableExists]

variable [DecidableEq κ]

/-- The columns are those of the table that is found. -/
theorem columnsOf_eq {table : Table κ} (h : db.target at_ = some place)
    (htable : db place = some table) : db.columnsOf at_ = table.names := by
  unfold columnsOf
  rw [h]
  show (db place).elim ∅ Table.names = _
  rw [htable]
  rfl

theorem columnsOf_eq_empty (h : db.tableExists at_ = false) : db.columnsOf at_ = ∅ := by
  have hnone : db.target at_ = none := by
    unfold target
    rw [List.find?_eq_none]
    intro place hplace
    simp [tableExists_eq_false_iff.1 h place hplace]
  unfold columnsOf
  rw [hnone]
  rfl

omit [DecidableEq κ] in
/-- The first place with a table is found. -/
theorem target_cons_of_isSome (h : (db place).isSome = true) :
    db.target (place :: at_) = some place := by
  simp [target, h]

theorem names_addColumn (table : Table κ) (name : κ) (column : PgColumn) :
    (table.addColumn name column).names = insert name table.names := by
  unfold Table.addColumn
  split
  · rename_i hmem
    exact (Finset.insert_eq_of_mem hmem).symm
  · ext c
    show c ∈ (table.columns.insert name column).keys.toFinset ↔ _
    rw [List.mem_toFinset, ← AList.mem_keys, AList.mem_insert]
    simp [Table.names, AList.mem_keys]

variable [DecidableEq ν]

/-- **Creating a table** leaves a table in the first place, the one that was there if one
was. -/
theorem of_createTable {table : Table κ} (h : db.createTable at_ table = some db') :
    ∃ p rest, at_ = p :: rest ∧ (∀ q, q ≠ p → db' q = db q)
      ∧ db' p = some ((db p).getD table) ∧ db'.columnsOf at_ = ((db p).getD table).names := by
  match at_ with
  | p :: rest =>
    have hplace : db' p = some ((db p).getD table) ∧ ∀ q, q ≠ p → db' q = db q := by
      cases Option.some.inj h
      cases hp : db p with
      | none => simp +contextual [Function.update_of_ne]
      | some found => simp [hp]
    have htarget : db'.target (p :: rest) = some p :=
      target_cons_of_isSome (by rw [hplace.1]; rfl)
    exact ⟨p, rest, rfl, hplace.2, hplace.1, columnsOf_eq htarget hplace.1⟩

/-- **`ALTER TABLE` adds a column** to the table that is found. -/
theorem alterTable_eq_some {name : κ} {column : PgColumn}
    (h : db.alterTable at_ name column = some db') :
    ∃ p table, db.target at_ = some p ∧ db p = some table
      ∧ db' = Function.update db p (some (table.addColumn name column)) := by
  unfold alterTable at h
  simp only [Option.bind_eq_bind, Option.bind_eq_some_iff, Option.pure_def,
    Option.some.injEq] at h
  obtain ⟨p, htarget, table, htable, rfl⟩ := h
  exact ⟨p, table, htarget, htable, rfl⟩

/-- **Adding a column** adds it to the table that is meant. -/
theorem of_alterTable {name : κ} {column : PgColumn}
    (h : db.alterTable at_ name column = some db') :
    db'.columnsOf at_ = insert name (db.columnsOf at_) := by
  obtain ⟨p, table, htarget, htable, rfl⟩ := alterTable_eq_some h
  have hsame : ∀ q, (Function.update db p (some (table.addColumn name column)) q).isSome
      = (db q).isSome := by
    intro q
    by_cases hq : q = p
    · subst hq
      simp [htable]
    · rw [Function.update_of_ne hq]
  have htarget' : target (Function.update db p (some (table.addColumn name column))) at_
      = some p := by
    unfold target
    simp only [hsame]
    exact htarget
  rw [columnsOf_eq htarget' (Function.update_self p _ db), columnsOf_eq htarget htable,
    names_addColumn]

end Database

/-! ## The invariant -/

section Runs

variable [LinearOrder κ] {η : Type}

/-- The columns of the table that a schema is for. -/
def Config.columnsOf (cfg : Config κ ν η) (db : Database κ ν) (schema : Schema κ ν) : Finset κ :=
  db.columnsOf (cfg.places schema)

/-- **What the adapter believes** of the columns of a schema is so: they exist, and those
that it does not believe to exist are still to be added. -/
def Believes (cfg : Config κ ν η) (db : Database κ ν) (a : Adapter κ ν) : Prop :=
  match a.pc with
  | .committing _ => a.tableCreated = true
  | .loading _ found => found = true → a.tableCreated = true
  | .probing schema => schema.names ∩ a.existingColumns ⊆ cfg.columnsOf db schema
  | .altering schema newColumns _ =>
    schema.names ∩ a.existingColumns ⊆ cfg.columnsOf db schema
      ∧ schema.names ⊆ a.existingColumns ∪ newColumns.toFinset
  | _ => True

/-- An adapter that creates no tables has not noted one. -/
def Idles (cfg : Config κ ν η) (a : Adapter κ ν) : Prop :=
  cfg.autoCreate = false → a.tableCreated = false ∧ a.pc = .idle

/-- **The table is known**: where tables are not created it has the columns already, and what
an adapter takes for the existing columns, the ones it finds or those it remembers if it
cannot look, are columns of the table as far as the schema has them. -/
def Knows (cfg : Config κ ν η) (s : State κ ν) : Event κ ν → Prop
  | .apply schema => cfg.autoCreate = false → schema.names ⊆ cfg.columnsOf s.db schema
  | .executed =>
    match s.adapter.pc with
    | .loading schema _ =>
      schema.names ∩ s.db.lookupColumns (cfg.places schema) ⊆ cfg.columnsOf s.db schema
    | _ => True
  | .fails =>
    match s.adapter.pc with
    | .loading schema _ => schema.names ∩ s.adapter.existingColumns ⊆ cfg.columnsOf s.db schema
    | _ => True
  | _ => True

/-- **The table is created** by the statement that is to create it, or has the columns of the
schema. -/
def Creates (cfg : Config κ ν η) (s : State κ ν) : Event κ ν → Prop
  | .executed =>
    match s.adapter.pc with
    | .creating schema =>
      ∀ p ∈ (cfg.places schema).head?, ∀ table ∈ s.db p, schema.names ⊆ table.names
    | _ => True
  | _ => True

/-- **A schema that an adapter records** as applied: every column of it exists. -/
def Records (cfg : Config κ ν η) (db : Database κ ν) (a a' : Adapter κ ν) : Prop :=
  ∀ schema, a'.appliedSchema = some schema → a.appliedSchema ≠ some schema →
    schema.names ⊆ cfg.columnsOf db schema

variable {cfg : Config κ ν η} {db db' : Database κ ν} {a : Adapter κ ν} {schema : Schema κ ν}

/-- What has been applied stays as it was. -/
theorem records_of_eq {a' : Adapter κ ν} (h : a'.appliedSchema = a.appliedSchema) :
    Records cfg db a a' :=
  fun _ hnew hold => absurd (h ▸ hnew) hold

/-- **A schema is recorded** when all its columns are there. -/
theorem records_finish (h : schema.names ⊆ cfg.columnsOf db schema) :
    Records cfg db a (a.finish schema) := by
  intro applied happlied _
  cases Option.some.inj happlied
  exact h

/-- What is believed once the existing columns are known. -/
theorem alterNew_spec
    (h : schema.names ∩ a.existingColumns ⊆ cfg.columnsOf db schema) :
    Believes cfg db (a.alterNew schema) ∧ Records cfg db a (a.alterNew schema) := by
  unfold Adapter.alterNew
  split
  · rename_i hnone
    have hall : schema.names ⊆ a.existingColumns := Finset.sdiff_eq_empty_iff_subset.1 hnone
    rw [Finset.inter_eq_left.2 hall] at h
    exact ⟨trivial, records_finish h⟩
  · exact ⟨h, records_of_eq rfl⟩

/-- **`_alter_table_add_columns`** begins with the columns that are missing. -/
theorem alterTableAddColumns_spec (halter : cfg.autoAlter = true)
    (hnot : a.tableCreated = false → schema.names ⊆ cfg.columnsOf db schema)
    (h : a.tableCreated = true → schema.names ∩ a.existingColumns ⊆ cfg.columnsOf db schema) :
    Believes cfg db (a.alterTableAddColumns schema cfg.autoAlter)
      ∧ Records cfg db a (a.alterTableAddColumns schema cfg.autoAlter) := by
  unfold Adapter.alterTableAddColumns
  split
  · rename_i hoff
    have hcreated : a.tableCreated = false := hoff.resolve_left (by simp [halter])
    exact ⟨trivial, records_finish (hnot hcreated)⟩
  · rename_i hon
    have hcreated : a.tableCreated = true := by simpa using (not_or.1 hon).2
    split
    · exact ⟨nofun, records_of_eq rfl⟩
    · exact alterNew_spec (h hcreated)

/-- What was loaded is believed, and it was so. -/
theorem loaded_spec {found : Bool} (halter : cfg.autoAlter = true)
    (hfound : found = true → a.tableCreated = true)
    (h : schema.names ∩ a.existingColumns ⊆ cfg.columnsOf db schema) :
    Believes cfg db (a.loaded schema cfg.autoAlter found)
      ∧ Records cfg db a (a.loaded schema cfg.autoAlter found) := by
  unfold Adapter.loaded
  split
  · rename_i hyes
    refine alterTableAddColumns_spec halter (fun hnot => ?_) (fun _ => h)
    rw [hfound hyes] at hnot
    cases hnot
  · exact alterNew_spec h

/-- A new table has the columns of the schema. -/
theorem names_newTable : (cfg.newTable schema).names = schema.names := by
  ext c
  show c ∈ (schema.columns.mapValues _).keys.toFinset ↔ c ∈ schema.columns.keys.toFinset
  rw [List.mem_toFinset, List.mem_toFinset, ← AList.mem_keys, ← AList.mem_keys,
    ← AList.lookup_isSome, ← AList.lookup_isSome, Dict.lookup_mapValues, Option.isSome_map]

/-- What a step must do: keep what is believed true, and record only what is so. -/
def Faithful (cfg : Config κ ν η) (db : Database κ ν) (a a' : Adapter κ ν) : Prop :=
  Believes cfg db a' ∧ Records cfg db a a'

theorem faithful_of_pc {pc : Pc κ ν} (h : Believes cfg db { a with pc }) :
    Faithful cfg db a { a with pc } :=
  ⟨h, records_of_eq rfl⟩

variable [DecidableEq ν]

/-- A table that is new, or has the columns. -/
theorem names_subset_of_createTable
    (hg : ∀ p ∈ (cfg.places schema).head?, ∀ table ∈ db p, schema.names ⊆ table.names)
    (hdb : db.createTable (cfg.places schema) (cfg.newTable schema) = some db') :
    schema.names ⊆ cfg.columnsOf db' schema := by
  obtain ⟨p, rest, hplaces, _, _, hcolumns⟩ := Database.of_createTable hdb
  show schema.names ⊆ db'.columnsOf (cfg.places schema)
  rw [hcolumns]
  cases hp : db p with
  | none => exact names_newTable.ge
  | some table => exact hg p (by rw [hplaces]; rfl) table hp

/-- **A table that was created** has the columns of the schema, or had them. -/
theorem faithful_creating (halter : cfg.autoAlter = true)
    (hg : ∀ p ∈ (cfg.places schema).head?, ∀ table ∈ db p, schema.names ⊆ table.names)
    (hdb : db.createTable (cfg.places schema) (cfg.newTable schema) = some db') :
    Faithful cfg db' a
      (Adapter.alterTableAddColumns
        { a with tableCreated := true, existingColumns := schema.names } schema
        cfg.autoAlter) := by
  have hnames := names_subset_of_createTable hg hdb
  exact alterTableAddColumns_spec halter (fun _ => hnames)
    (fun _ => Finset.inter_subset_left.trans hnames)

/-- **A column that was added** is there. -/
theorem faithful_altering {name : κ} {names : List κ} {tableHasRows : Bool}
    (hs : schema.names ∩ a.existingColumns ⊆ cfg.columnsOf db schema)
    (hrest : schema.names ⊆ a.existingColumns ∪ (name :: names).toFinset)
    (hdb : cfg.addColumn db schema name tableHasRows = some db') :
    schema.names ∩ insert name a.existingColumns ⊆ cfg.columnsOf db' schema
      ∧ schema.names ⊆ insert name a.existingColumns ∪ names.toFinset := by
  unfold Config.addColumn at hdb
  simp only [Option.bind_eq_bind, Option.bind_eq_some_iff] at hdb
  obtain ⟨column, _, hdb⟩ := hdb
  have hcolumns : cfg.columnsOf db' schema = insert name (cfg.columnsOf db schema) :=
    Database.of_alterTable hdb
  rw [hcolumns]
  refine ⟨fun c hc => ?_, fun c hc => ?_⟩
  · obtain ⟨hc, hc'⟩ := Finset.mem_inter.1 hc
    obtain rfl | hc' := Finset.mem_insert.1 hc'
    · exact Finset.mem_insert_self _ _
    · exact Finset.mem_insert_of_mem (hs (Finset.mem_inter.2 ⟨hc, hc'⟩))
  · have hmem := hrest hc
    simp only [List.toFinset_cons, Finset.mem_union, Finset.mem_insert] at hmem ⊢
    tauto

variable [DecidableEq η] {s t : State κ ν} {e : Event κ ν}

/-- A call begins with what the adapter knows. -/
theorem faithful_apply (halter : cfg.autoAlter = true) (hidle : Idles cfg s.adapter)
    (hg : Knows cfg s (.apply schema)) (h : step cfg s (.apply schema) = some t) :
    Idles cfg t.adapter ∧ Faithful cfg t.db s.adapter t.adapter := by
  obtain ⟨db, a⟩ := s
  cases hpc : a.pc with
  | idle =>
    simp only [step, hpc] at h
    split at h
    · cases h
    · split at h
      · rename_i hon
        cases h
        refine ⟨fun hoff => ?_, trivial, records_of_eq rfl⟩
        rw [hoff] at hon
        cases hon
      · rename_i hoff
        have hoff' : cfg.autoCreate = false := by simpa using hoff
        have hcreated : a.tableCreated = false := (hidle hoff').1
        cases h
        refine ⟨fun _ => ?_, alterTableAddColumns_spec halter (fun _ => hg hoff') ?_⟩
        · simp [Adapter.alterTableAddColumns, Adapter.finish, hcreated]
        · intro hyes
          rw [hcreated] at hyes
          cases hyes
  | _ => simp [step, hpc] at h

/-- **A command** makes true what the adapter takes to be so after it. -/
theorem faithful_executed (halter : cfg.autoAlter = true)
    (hs : Believes cfg s.db s.adapter) (hg : Knows cfg s .executed)
    (hc : Creates cfg s .executed) (h : step cfg s .executed = some t) :
    Faithful cfg t.db s.adapter t.adapter := by
  obtain ⟨db, a⟩ := s
  cases hpc : a.pc with
  | idle => simp [step, hpc] at h
  | probing schema => simp [step, hpc] at h
  | checking schema =>
    simp only [step, hpc] at h
    split at h
    · cases h
      exact ⟨rfl, records_of_eq rfl⟩
    · split at h
      · cases h
        exact faithful_of_pc trivial
      · cases h
        exact faithful_of_pc trivial
  | committing schema =>
    simp only [step, hpc] at h
    have hcreated : a.tableCreated = true := by simpa [Believes, hpc] using hs
    cases h
    exact faithful_of_pc (fun _ => hcreated)
  -- the columns come from the database, so they are there
  | loading schema found =>
    simp only [step, hpc] at h
    have hfound : found = true → a.tableCreated = true := by simpa [Believes, hpc] using hs
    have hknown : schema.names ∩ db.lookupColumns (cfg.places schema)
        ⊆ cfg.columnsOf db schema := by simpa [Knows, hpc] using hg
    cases h
    exact loaded_spec halter hfound hknown
  | creating schema =>
    simp only [step, hpc, Option.bind_eq_bind, Option.bind_eq_some_iff] at h
    obtain ⟨db', hdb, h⟩ := h
    cases h
    refine faithful_creating halter ?_ hdb
    simpa [Creates, hpc] using hc
  | altering schema newColumns tableHasRows =>
    match newColumns with
    | [] => simp [step, hpc] at h
    | name :: names =>
      simp only [step, hpc, Option.bind_eq_bind, Option.bind_eq_some_iff] at h
      obtain ⟨db', hdb, h⟩ := h
      have hbelieved : schema.names ∩ a.existingColumns ⊆ cfg.columnsOf db schema
          ∧ schema.names ⊆ a.existingColumns ∪ (name :: names).toFinset := by
        simpa [Believes, hpc] using hs
      obtain ⟨hknown, hrest⟩ := faithful_altering hbelieved.1 hbelieved.2 hdb
      cases names with
      | nil =>
        cases h
        refine ⟨trivial, records_finish ?_⟩
        have hall : schema.names ⊆ insert name a.existingColumns := by simpa using hrest
        rwa [Finset.inter_eq_left.2 hall] at hknown
      | cons next names =>
        cases h
        exact ⟨⟨hknown, hrest⟩, records_of_eq rfl⟩

/-- One that fails leaves it believing no more. -/
theorem faithful_fails (halter : cfg.autoAlter = true)
    (hs : Believes cfg s.db s.adapter) (hg : Knows cfg s .fails)
    (h : step cfg s .fails = some t) : Faithful cfg t.db s.adapter t.adapter := by
  obtain ⟨db, a⟩ := s
  cases hpc : a.pc with
  | idle => simp [step, hpc] at h
  | loading schema found =>
    simp only [step, hpc] at h
    have hfound : found = true → a.tableCreated = true := by simpa [Believes, hpc] using hs
    have hknown : schema.names ∩ a.existingColumns ⊆ cfg.columnsOf db schema := by
      simpa [Knows, hpc] using hg
    cases h
    exact loaded_spec halter hfound hknown
  | _ =>
    simp only [step, hpc] at h
    cases h
    exact faithful_of_pc trivial

/-- **A step keeps what is believed true**, and records only what is so. -/
theorem faithful_step (halter : cfg.autoAlter = true) (hidle : Idles cfg s.adapter)
    (hs : Believes cfg s.db s.adapter) (hg : Knows cfg s e) (hc : Creates cfg s e)
    (h : step cfg s e = some t) :
    Idles cfg t.adapter ∧ Faithful cfg t.db s.adapter t.adapter := by
  have hon : s.adapter.pc ≠ .idle → Idles cfg t.adapter :=
    fun hpc hoff => absurd (hidle hoff).2 hpc
  cases e with
  | apply schema => exact faithful_apply halter hidle hg h
  | executed =>
    refine ⟨hon (fun hpc => ?_), faithful_executed halter hs hg hc h⟩
    simp [step, hpc] at h
  | fails =>
    refine ⟨hon (fun hpc => ?_), faithful_fails halter hs hg h⟩
    simp [step, hpc] at h
  | rows tableHasRows =>
    obtain ⟨db, a⟩ := s
    cases hpc : a.pc with
    | probing schema =>
      simp only [step, hpc] at h
      have hknown : schema.names ∩ a.existingColumns ⊆ cfg.columnsOf db schema := by
        simpa [Believes, hpc] using hs
      cases h
      refine ⟨hon (by simp [hpc]), faithful_of_pc ⟨hknown, ?_⟩⟩
      simp
    | _ => simp [step, hpc] at h
  | aborts =>
    obtain ⟨db, a⟩ := s
    cases hpc : a.pc with
    | idle => simp [step, hpc] at h
    | _ =>
      simp only [step, hpc] at h
      cases h
      exact ⟨hon (by simp [hpc]), faithful_of_pc trivial⟩

/-! ## The moves of an adapter -/

/-- **What a step can do.** -/
inductive Move (cfg : Config κ ν η) (db : Database κ ν) (a : Adapter κ ν) (e : Event κ ν) :
    State κ ν → Prop where
  | begins (schema : Schema κ ν) : a.pc = .idle → e = .apply schema → cfg.autoCreate = true →
      Move cfg db a e ⟨db, { a with pc := .checking schema }⟩
  | skips (schema : Schema κ ν) : a.pc = .idle → e = .apply schema → cfg.autoCreate = false →
      Move cfg db a e ⟨db, a.alterTableAddColumns schema cfg.autoAlter⟩
  | finds (schema : Schema κ ν) : a.pc = .checking schema →
      Move cfg db a e ⟨db, { a with tableCreated := true, pc := .committing schema }⟩
  | misses (schema : Schema κ ν) : a.pc = .checking schema →
      db.tableExists (cfg.places schema) = false →
      Move cfg db a e ⟨db, { a with pc := .creating schema }⟩
  | commits (schema : Schema κ ν) : a.pc = .committing schema →
      Move cfg db a e ⟨db, { a with pc := .loading schema true }⟩
  | loads (schema : Schema κ ν) (found : Bool) (existing : Finset κ) :
      a.pc = .loading schema found →
      existing = db.lookupColumns (cfg.places schema) ∨ existing = a.existingColumns →
      Move cfg db a e
        ⟨db, Adapter.loaded { a with existingColumns := existing } schema cfg.autoAlter found⟩
  | creates (schema : Schema κ ν) (db' : Database κ ν) : a.pc = .creating schema →
      e = .executed → db.createTable (cfg.places schema) (cfg.newTable schema) = some db' →
      Move cfg db a e ⟨db', Adapter.alterTableAddColumns
        { a with tableCreated := true, existingColumns := schema.names } schema cfg.autoAlter⟩
  | probes (schema : Schema κ ν) (newColumns : List κ) (tableHasRows : Bool) :
      a.pc = .probing schema →
      Move cfg db a e ⟨db, { a with pc := .altering schema newColumns tableHasRows }⟩
  | alters (schema : Schema κ ν) (name : κ) (names : List κ) (tableHasRows : Bool)
      (db' : Database κ ν) : a.pc = .altering schema (name :: names) tableHasRows →
      cfg.addColumn db schema name tableHasRows = some db' →
      Move cfg db a e ⟨db', { a with
        existingColumns := insert name a.existingColumns
        pc := .altering schema names tableHasRows }⟩
  | finishes (schema : Schema κ ν) (name : κ) (tableHasRows : Bool) (db' : Database κ ν) :
      a.pc = .altering schema [name] tableHasRows →
      cfg.addColumn db schema name tableHasRows = some db' →
      Move cfg db a e ⟨db', Adapter.finish
        { a with existingColumns := insert name a.existingColumns } schema⟩
  | stops : a.pc ≠ .idle → Move cfg db a e ⟨db, { a with pc := .idle }⟩

/-- A command moves the database only forward. -/
theorem move_executed {db : Database κ ν} {a : Adapter κ ν}
    (h : step cfg ⟨db, a⟩ .executed = some t) : Move cfg db a .executed t := by
  cases hpc : a.pc with
  | idle => simp [step, hpc] at h
  | probing schema => simp [step, hpc] at h
  | checking schema =>
    simp only [step, hpc] at h
    split at h
    · cases h
      exact .finds schema hpc
    · rename_i hexists
      split at h
      · cases h
        exact .stops (by simp [hpc])
      · cases h
        exact .misses schema hpc (by simpa using hexists)
  | committing schema =>
    simp only [step, hpc] at h
    cases h
    exact .commits schema hpc
  | loading schema found =>
    simp only [step, hpc] at h
    cases h
    exact .loads schema found _ hpc (.inl rfl)
  | creating schema =>
    simp only [step, hpc, Option.bind_eq_bind, Option.bind_eq_some_iff] at h
    obtain ⟨db', hdb, h⟩ := h
    cases h
    exact .creates schema db' hpc rfl hdb
  | altering schema newColumns tableHasRows =>
    match newColumns with
    | [] => simp [step, hpc] at h
    | name :: names =>
      simp only [step, hpc, Option.bind_eq_bind, Option.bind_eq_some_iff] at h
      obtain ⟨db', hdb, h⟩ := h
      cases names with
      | nil =>
        cases h
        exact .finishes schema name tableHasRows db' hpc hdb
      | cons next names =>
        cases h
        exact .alters schema name (next :: names) tableHasRows db' hpc hdb

theorem move_of_step (h : step cfg s e = some t) : Move cfg s.db s.adapter e t := by
  obtain ⟨db, a⟩ := s
  cases e with
  | executed => exact move_executed h
  | apply schema =>
    cases hpc : a.pc with
    | idle =>
      simp only [step, hpc] at h
      split at h
      · cases h
      · split at h
        · rename_i hon
          cases h
          exact .begins schema hpc rfl hon
        · rename_i hoff
          cases h
          exact .skips schema hpc rfl (by simpa using hoff)
    | _ => simp [step, hpc] at h
  | rows tableHasRows =>
    cases hpc : a.pc with
    | probing schema =>
      simp only [step, hpc] at h
      cases h
      exact .probes schema _ tableHasRows hpc
    | _ => simp [step, hpc] at h
  | fails =>
    cases hpc : a.pc with
    | idle => simp [step, hpc] at h
    | loading schema found =>
      simp only [step, hpc] at h
      cases h
      exact .loads schema found _ hpc (.inr rfl)
    | _ =>
      simp only [step, hpc] at h
      cases h
      exact .stops (by simp [hpc])
  | aborts =>
    cases hpc : a.pc with
    | idle => simp [step, hpc] at h
    | _ =>
      simp only [step, hpc] at h
      cases h
      exact .stops (by simp [hpc])

/-! ## Whole runs -/

/-- The schema that is being applied. -/
def Pc.schema? : Pc κ ν → Option (Schema κ ν)
  | .idle => none
  | .checking schema | .committing schema | .loading schema _ | .creating schema
  | .probing schema | .altering schema _ _ => some schema

/-- **What becomes of an adapter** in the computations between two statements. -/
structure Proceeds (schema : Schema κ ν) (a a' : Adapter κ ν) : Prop where
  existing : a'.existingColumns = a.existingColumns
  applied : a'.appliedSchema = a.appliedSchema ∨ a'.appliedSchema = some schema
  pc : a'.pc.schema? = none ∨ a'.pc.schema? = some schema
  not_creating : ∀ schema', a'.pc ≠ .creating schema'

omit [DecidableEq ν] [DecidableEq η] in
/-- The adapter goes on with this schema. -/
theorem proceeds_alterNew (a : Adapter κ ν) (schema : Schema κ ν) :
    Proceeds schema a (a.alterNew schema) := by
  unfold Adapter.alterNew Adapter.finish
  split
  · exact ⟨rfl, .inr rfl, .inl rfl, nofun⟩
  · exact ⟨rfl, .inl rfl, .inr rfl, nofun⟩

omit [DecidableEq ν] [DecidableEq η] in
theorem proceeds_alterTableAddColumns (a : Adapter κ ν) (schema : Schema κ ν)
    (autoAlter : Bool) : Proceeds schema a (a.alterTableAddColumns schema autoAlter) := by
  unfold Adapter.alterTableAddColumns Adapter.finish
  split
  · exact ⟨rfl, .inr rfl, .inl rfl, nofun⟩
  · split
    · exact ⟨rfl, .inl rfl, .inr rfl, nofun⟩
    · exact proceeds_alterNew a schema

omit [DecidableEq ν] [DecidableEq η] in
theorem proceeds_loaded (a : Adapter κ ν) (schema : Schema κ ν) (autoAlter found : Bool) :
    Proceeds schema a (a.loaded schema autoAlter found) := by
  unfold Adapter.loaded
  split
  · exact proceeds_alterTableAddColumns a schema autoAlter
  · exact proceeds_alterNew a schema

/-- **A table is created** only when it was looked for and was not there. -/
theorem of_pc_creating (h : step cfg s e = some t) (hpc : t.adapter.pc = .creating schema) :
    s.db.tableExists (cfg.places schema) = false ∧ t.db = s.db := by
  cases move_of_step h with
  | misses _ _ habsent =>
    cases hpc
    exact ⟨habsent, rfl⟩
  | skips => exact absurd hpc ((proceeds_alterTableAddColumns _ _ _).not_creating _)
  | loads => exact absurd hpc ((proceeds_loaded _ _ _ _).not_creating _)
  | creates => exact absurd hpc ((proceeds_alterTableAddColumns _ _ _).not_creating _)
  | _ => cases hpc

/-- What holds of one adapter that nothing interferes with. -/
structure Coherent (cfg : Config κ ν η) (s : State κ ν) : Prop where
  idles : Idles cfg s.adapter
  believes : Believes cfg s.db s.adapter
  absent : ∀ schema, s.adapter.pc = .creating schema →
    s.db.tableExists (cfg.places schema) = false

omit [DecidableEq ν] [DecidableEq η] in
/-- The table that is created is a new one. -/
theorem Coherent.creates (hs : Coherent cfg s) : Creates cfg s e := by
  unfold Creates
  split
  · split
    · rename_i schema hpc
      intro p hp table htable
      have hnone := Database.tableExists_eq_false_iff.1 (hs.absent schema hpc) p
        (List.mem_of_mem_head? hp)
      rw [hnone] at htable
      cases htable
    · trivial
  · trivial

/-- **What an adapter records as applied is there.** In every run of an adapter that alters
tables, whenever a schema is recorded every column of it is in the target table, if at each
step the table is known. -/
theorem records_existing (halter : cfg.autoAlter = true) (db : Database κ ν)
    (es : List (Event κ ν))
    (h : Machine.AllSteps (step cfg) (fun s e _ => Knows cfg s e) ⟨db, {}⟩ es) :
    Machine.AllSteps (step cfg) (fun s _ t => Records cfg t.db s.adapter t.adapter)
      ⟨db, {}⟩ es := by
  have hinit : Coherent cfg (⟨db, {}⟩ : State κ ν) := ⟨fun _ => ⟨rfl, rfl⟩, trivial, nofun⟩
  refine Machine.allSteps_of_step (fun s e t hs hg hstep => ?_) hinit h
  obtain ⟨hidles, hbelieves, hrecords⟩ :=
    faithful_step halter hs.idles hs.believes hg hs.creates hstep
  refine ⟨⟨hidles, hbelieves, fun schema hpc => ?_⟩, hrecords⟩
  obtain ⟨habsent, hdb⟩ := of_pc_creating hstep hpc
  rw [hdb]
  exact habsent

instance (cfg : Config κ ν η) (s : State κ ν) (e : Event κ ν) : Decidable (Knows cfg s e) :=
  match e with
  | .apply schema =>
    inferInstanceAs (Decidable (cfg.autoCreate = false → schema.names ⊆ cfg.columnsOf s.db schema))
  | .executed =>
    match h : s.adapter.pc with
    | .loading schema _ =>
      decidable_of_iff (schema.names ∩ s.db.lookupColumns (cfg.places schema)
        ⊆ cfg.columnsOf s.db schema) (by simp [Knows, h])
    | .idle | .checking _ | .committing _ | .creating _ | .probing _ | .altering .. =>
      .isTrue (by simp [Knows, h])
  | .fails =>
    match h : s.adapter.pc with
    | .loading schema _ =>
      decidable_of_iff (schema.names ∩ s.adapter.existingColumns ⊆ cfg.columnsOf s.db schema)
        (by simp [Knows, h])
    | .idle | .checking _ | .committing _ | .creating _ | .probing _ | .altering .. =>
      .isTrue (by simp [Knows, h])
  | .rows _ => .isTrue trivial
  | .aborts => .isTrue trivial

instance (cfg : Config κ ν η) (s : State κ ν) (e : Event κ ν) : Decidable (Creates cfg s e) :=
  match e with
  | .executed =>
    match h : s.adapter.pc with
    | .creating schema =>
      decidable_of_iff (∀ p ∈ (cfg.places schema).head?, ∀ table ∈ s.db p,
        schema.names ⊆ table.names) (by simp [Creates, h])
    | .idle | .checking _ | .committing _ | .loading .. | .probing _ | .altering .. =>
      .isTrue (by simp [Creates, h])
  | .apply _ => .isTrue trivial
  | .rows _ => .isTrue trivial
  | .fails => .isTrue trivial
  | .aborts => .isTrue trivial

/-! ## A table that lacks a column -/

/-- Records of users, with a name. -/
def withName : Schema String String where
  table := .name "users"
  columns := (AList.insert "id" ⟨.integer, false⟩ ∅).insert "name" ⟨.string, true⟩

/-- A table of users without names. -/
def nameless : Database String String := fun place =>
  if place = ("public", "users") then some ⟨AList.insert "id" ⟨"BIGINT", false⟩ ∅, []⟩ else none

/-- An adapter that may create tables, or not. -/
def creating (autoCreate : Bool) : Config String String (Finset String) where
  autoCreate
  searchPath := ["public"]
  hash := Schema.names

/-- With both flags on the column is added. -/
theorem records_withName :
    (creating true).autoAlter = true
      ∧ Machine.AllSteps (step (creating true)) (fun s e _ => Knows (creating true) s e)
        ⟨nameless, {}⟩ [.apply withName, .executed, .executed, .executed, .rows true, .executed]
      ∧ Machine.AllSteps (step (creating true))
        (fun s _ t => Records (creating true) t.db s.adapter t.adapter)
        ⟨nameless, {}⟩ [.apply withName, .executed, .executed, .executed, .rows true, .executed] := by
  have hknows : Machine.AllSteps (step (creating true)) (fun s e _ => Knows (creating true) s e)
      ⟨nameless, {}⟩ [.apply withName, .executed, .executed, .executed, .rows true, .executed] := by
    decide +kernel
  exact ⟨rfl, hknows, records_existing rfl nameless _ hknows⟩

/-- **With tables not created, none is altered**, and the schema is recorded all the same. -/
theorem not_records_nameless :
    ¬ ∀ (autoCreate : Bool) (db : Database String String) (es : List (Event String String)),
      Machine.AllSteps (step (creating autoCreate))
        (fun s _ t => Records (creating autoCreate) t.db s.adapter t.adapter) ⟨db, {}⟩ es := by
  intro h
  obtain ⟨hrecords, _⟩ := h false nameless [.apply withName] _ rfl
  have hcolumns := hrecords withName rfl (by simp)
  revert hcolumns
  decide +kernel

end Runs

end SchemaAdapter

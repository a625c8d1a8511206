import AgoraPlugins.Dict
import AgoraPlugins.Postgres.Sink
import AgoraPlugins.Postgres.Upsert
import Mathlib.Data.Finset.Dedup

/-!
# What a flush writes

A flush turns the rows of the buffer into batches, a batch into chunks no larger
than a statement may be, and a chunk into one `INSERT … ON CONFLICT` for all its
rows. All the statements of a flush are one transaction: if one of them fails,
the table is as it was.

In strict mode there is one batch, and its columns are those of the first row.
When rows are aligned to the target table they may have different columns; rows
with the same ones make a batch, and the batches come in the order in which
their columns were first seen.

Columns are those of the target table; in what order a statement lists them
makes no difference, so they are a set where statements are executed.
-/

open Upsert

/-- A row as the row mapper makes it. -/
abbrev Row (κ ν : Type) := Dict κ (Option ν)

/-- `_TargetColumn`. -/
structure TargetColumn (κ : Type) where
  name : κ
  nullable : Bool := true
  hasDefault : Bool := false
  writable : Bool := true

/-- `_PreparedWriteBatch`. -/
structure PreparedWriteBatch (κ ν : Type) where
  columns : List κ
  rows : List (Row κ ν)

/-- **The settings of a writer** that are about upserts, with the defaults of
the target table's columns. -/
structure WriteConfig (κ ν : Type) where
  conflictKeys : List κ
  upsert : Bool := true
  /-- `insert_mode` is `copy_merge`, not `sql` -/
  copyMerge : Bool := false
  maxRowsPerStatement : Option ℕ := none
  maxParametersPerStatement : ℕ := 32000
  policy : PostgresWriteSafetyPolicy := .strict
  targetColumns : List (TargetColumn κ) := []
  default : κ → Option ν := fun _ => none

/-- What a flush fails with. -/
inductive FlushError where
  | sql (error : SqlError)
  /-- a `ValueError` -/
  | mismatchedColumns
  | writeError (error : PostgresSinkWriteError)

namespace WriteConfig

variable {κ ν : Type} [DecidableEq κ] (cfg : WriteConfig κ ν)

/-! ## Statements -/

/-- The columns that a conflict sets. -/
def updateSet (columns : Finset κ) : Finset κ :=
  if cfg.upsert then columns.filter (fun c => c ∉ cfg.conflictKeys) else ∅

/-- The tuple proposed for a row: its values, and defaults. -/
def tupleOf (columns : Finset κ) (row : Row κ ν) : Tuple κ ν := fun c =>
  if c ∈ columns then (row.lookup c).getD none else cfg.default c

variable [DecidableEq ν]

/-- `build_batch_upsert_sql`, executed. A statement without columns, or without
a conflict target, is not one. -/
def executeStatement (columns : Finset κ) (t : Table κ ν) (rows : List (Row κ ν)) :
    Except FlushError (Table κ ν) :=
  if columns = ∅ ∨ cfg.conflictKeys = [] then .error (.sql .syntaxError)
  else
    (execute cfg.conflictKeys (cfg.updateSet columns) t
      (rows.map (cfg.tupleOf columns))).mapError .sql

/-- `statement_row_limit`. -/
def statementRowLimit (columnCount : ℕ) : ℕ :=
  if columnCount = 0 then 1
  else
    let byParams := max 1 (cfg.maxParametersPerStatement / columnCount)
    match cfg.maxRowsPerStatement with
    | none => byParams
    | some maxRows => max 1 (min maxRows byParams)

/-- `iter_sql_chunks`: slices from every multiple of the limit on. -/
def iterSqlChunks (rows : List (Row κ ν)) (columns : List κ) : List (List (Row κ ν)) :=
  let chunkSize := cfg.statementRowLimit columns.length
  (List.range' 0 ((rows.length + chunkSize - 1) / chunkSize) chunkSize).map
    (fun start => (rows.drop start).take chunkSize)

/-- **A chunk is executed** if its rows have the columns of the batch, as
`flatten_rows` requires. -/
def executeChunk (columns : Finset κ) (t : Table κ ν) (rows : List (Row κ ν)) :
    Except FlushError (Table κ ν) :=
  if ∀ row ∈ rows, row.keys.toFinset = columns then cfg.executeStatement columns t rows
  else .error .mismatchedColumns

/-- **A batch is executed**, chunk by chunk, or merged from a staging table in
one statement. -/
def executeBatch (t : Table κ ν) (batch : PreparedWriteBatch κ ν) :
    Except FlushError (Table κ ν) :=
  if cfg.copyMerge then cfg.executeStatement batch.columns.toFinset t batch.rows
  else
    (cfg.iterSqlChunks batch.rows batch.columns).foldlM
      (cfg.executeChunk batch.columns.toFinset) t

/-! ## Alignment -/

/-- Whether the target has a writable column of the name. -/
def writable (c : κ) : Bool :=
  cfg.targetColumns.any (fun column => column.name = c && column.writable)

/-- **`normalize_row_to_target`**: the columns the target does not have are
dropped, and the row must still have a conflict key and what may not be
null. -/
def normalizeRow (row : Row κ ν) : Except PostgresSinkWriteError (Row κ ν) :=
  let normalized := Dict.restrict cfg.writable row
  if cfg.conflictKeys.any (fun c => c ∉ normalized.keys) then
    .error ⟨"Postgres row is missing conflict keys after schema alignment.", .schemaDrift,
      "missing_conflict_keys"⟩
  else if cfg.targetColumns.any (fun column => column.writable && column.name ∉ normalized.keys
      && !column.nullable && !column.hasDefault) then
    .error ⟨"Postgres target schema requires non-null columns that are missing from the row.",
      .schemaDrift, "missing_required_columns"⟩
  else if normalized.entries.isEmpty then
    .error ⟨"Postgres row has no writable target columns after schema alignment.",
      .schemaDrift, "no_writable_columns"⟩
  else .ok normalized

/-- The columns of a normalised row, in the order of the target. -/
def orderedColumns (row : Row κ ν) : List κ :=
  ((cfg.targetColumns.filter TargetColumn.writable).map TargetColumn.name).filter
    (fun c => c ∈ row.keys)

/-- A row joins the batch with its columns, or begins one. -/
def addToGroup (columns : List κ) (row : Row κ ν) :
    List (PreparedWriteBatch κ ν) → List (PreparedWriteBatch κ ν)
  | [] => [⟨columns, [row]⟩]
  | batch :: batches =>
    if batch.columns = columns then { batch with rows := batch.rows ++ [row] } :: batches
    else batch :: addToGroup columns row batches

/-- Normalised rows in batches. -/
def groupRows (rows : List (Row κ ν)) : List (PreparedWriteBatch κ ν) :=
  rows.foldl (fun batches row => addToGroup (cfg.orderedColumns row) row batches) []

/-- **`align_rows_to_target`.** -/
def alignRowsToTarget (rows : List (Row κ ν)) :
    Except PostgresSinkWriteError (List (PreparedWriteBatch κ ν)) := do
  let normalized ← rows.mapM cfg.normalizeRow
  pure (cfg.groupRows normalized)

/-! ## A flush -/

/-- **`prepared_write_batches`.** -/
def preparedWriteBatches (rows : List (Row κ ν)) :
    Except PostgresSinkWriteError (List (PreparedWriteBatch κ ν)) :=
  match rows with
  | [] => .ok []
  | row :: _ =>
    match cfg.policy with
    | .strict => .ok [⟨row.keys, rows⟩]
    | .alignToTarget => cfg.alignRowsToTarget rows

/-- **A flush** of the rows in the buffer, as one transaction. -/
def flush (t : Table κ ν) (rows : List (Row κ ν)) : Except FlushError (Table κ ν) := do
  let batches ← (cfg.preparedWriteBatches rows).mapError .writeError
  batches.foldlM cfg.executeBatch t

/-- **One single-row upsert per row**, in the order they were written. -/
def upsertEach (t : Table κ ν) (rows : List (Row κ ν)) : Except FlushError (Table κ ν) :=
  rows.foldlM (fun t row => cfg.executeStatement row.keys.toFinset t [row]) t

/-! ## What can be executed -/

/-- The upsert of a row. -/
def rowProposal (columns : Finset κ) (row : Row κ ν) : Proposal κ ν :=
  ⟨cfg.updateSet columns, cfg.tupleOf columns row⟩

/-- **A statement that can be executed**: it has columns and a conflict target,
and if it sets columns it proposes no key twice. -/
def Executable (columns : Finset κ) (rows : List (Row κ ν)) : Prop :=
  columns ≠ ∅ ∧ cfg.conflictKeys ≠ []
    ∧ (cfg.updateSet columns = ∅
      ∨ (keysOf cfg.conflictKeys (rows.map (cfg.tupleOf columns))).Nodup)

instance (columns : Finset κ) (rows : List (Row κ ν)) :
    Decidable (cfg.Executable columns rows) :=
  inferInstanceAs (Decidable (_ ∧ _ ∧ _))

variable {ε σ γ : Type} {cfg}

/-! ## From statements to batches -/

/-- **A fold that may fail** succeeds when every step may be made, and is then
the fold of what the steps do. -/
theorem foldlM_eq_ok_iff {f : σ → γ → Except ε σ} {g : σ → γ → σ} {P : γ → Prop} :
    ∀ {xs : List γ}, (∀ s, ∀ x ∈ xs, ∀ u, f s x = .ok u ↔ P x ∧ u = g s x) →
      ∀ (s u : σ), xs.foldlM f s = .ok u ↔ (∀ x ∈ xs, P x) ∧ u = xs.foldl g s
  | [], _, s, u => by
    show Except.ok s = .ok u ↔ _
    simp [eq_comm]
  | x :: xs, h, s, u => by
    have hx := h s x List.mem_cons_self
    have ih := @foldlM_eq_ok_iff f g P xs (fun s y hy => h s y (List.mem_cons_of_mem x hy))
    rw [List.foldlM_cons]
    show Except.bind (f s x) _ = .ok u ↔ _
    cases hf : f s x with
    | error e =>
      have hnot : ¬ P x := by
        intro hp
        have hok := (hx (g s x)).2 ⟨hp, rfl⟩
        rw [hf] at hok
        cases hok
      simp [Except.bind, hnot]
    | ok t =>
      obtain ⟨hp, rfl⟩ := (hx t).1 hf
      show xs.foldlM f (g s x) = .ok u ↔ _
      rw [ih]
      simp [hp]

/-- A statement. -/
theorem executeStatement_eq_ok_iff {columns : Finset κ} {t u : Table κ ν}
    {rows : List (Row κ ν)} :
    cfg.executeStatement columns t rows = .ok u
      ↔ cfg.Executable columns rows
        ∧ u = upserts cfg.conflictKeys t (rows.map (cfg.rowProposal columns)) := by
  have hproposals : proposals (cfg.updateSet columns) (rows.map (cfg.tupleOf columns))
      = rows.map (cfg.rowProposal columns) := List.map_map
  unfold executeStatement Executable
  split
  · rename_i hmalformed
    simp only [reduceCtorEq, false_iff, not_and]
    rintro ⟨hcolumns, hkeys, _⟩
    exact absurd hmalformed (not_or.2 ⟨hcolumns, hkeys⟩)
  · rename_i hmalformed
    rw [not_or] at hmalformed
    rw [execute_eq, hproposals]
    split
    · rename_i hclear
      show Except.ok _ = .ok u ↔ _
      simp only [Except.ok.injEq]
      exact ⟨fun h => ⟨⟨hmalformed.1, hmalformed.2, hclear⟩, h.symm⟩, fun h => h.2.symm⟩
    · rename_i hclear
      show Except.error _ = .ok u ↔ _
      simp only [reduceCtorEq, false_iff, not_and]
      rintro ⟨_, _, h⟩
      exact absurd h hclear

/-- The slices of a list from every multiple of `n` on make up the list. -/
theorem flatten_slices (n : ℕ) (xs : List γ) :
    ∀ (m start : ℕ), ((List.range' start m n).map (fun i => (xs.drop i).take n)).flatten
      = (xs.drop start).take (m * n)
  | 0, start => by simp
  | m + 1, start => by
    rw [List.range'_succ, List.map_cons, List.flatten_cons, flatten_slices n xs m (start + n)]
    have hsplit : (m + 1) * n = n + m * n := by
      rw [Nat.succ_mul, Nat.add_comm]
    rw [hsplit, List.take_add, List.drop_drop]

/-- As many slices as it takes make up the whole list. -/
theorem flatten_slices_of_pos {n : ℕ} (hpos : 0 < n) (xs : List γ) :
    ((List.range' 0 ((xs.length + n - 1) / n) n).map
      (fun start => (xs.drop start).take n)).flatten = xs := by
  rw [flatten_slices, List.drop_zero]
  refine List.take_of_length_le ?_
  have hdiv := Nat.div_add_mod (xs.length + n - 1) n
  have hmod := Nat.mod_lt (xs.length + n - 1) hpos
  rw [Nat.mul_comm]
  omega

omit [DecidableEq κ] [DecidableEq ν] in
theorem statementRowLimit_pos (columnCount : ℕ) : 0 < cfg.statementRowLimit columnCount := by
  unfold statementRowLimit
  split
  · exact Nat.one_pos
  · dsimp only
    split
    · exact Nat.le_max_left _ _
    · exact Nat.le_max_left _ _

omit [DecidableEq κ] [DecidableEq ν] in
/-- **No row is in no chunk.** -/
theorem flatten_iterSqlChunks (rows : List (Row κ ν)) (columns : List κ) :
    (cfg.iterSqlChunks rows columns).flatten = rows :=
  flatten_slices_of_pos (statementRowLimit_pos columns.length) rows

/-- Upserts list by list. -/
theorem foldl_upserts (keys : List κ) (f : γ → List (Proposal κ ν)) (t : Table κ ν)
    (xs : List γ) :
    xs.foldl (fun t x => upserts keys t (f x)) t = upserts keys t (xs.flatMap f) := by
  induction xs generalizing t with
  | nil => rfl
  | cons x xs ih =>
    rw [List.foldl_cons, ih, List.flatMap_cons, upserts_append]

variable (cfg) in
/-- The statements of a batch. -/
def statements (batch : PreparedWriteBatch κ ν) : List (List (Row κ ν)) :=
  if cfg.copyMerge then [batch.rows] else cfg.iterSqlChunks batch.rows batch.columns

omit [DecidableEq κ] [DecidableEq ν] in
theorem flatten_statements (batch : PreparedWriteBatch κ ν) :
    (cfg.statements batch).flatten = batch.rows := by
  unfold statements
  split
  · exact List.flatten_singleton
  · exact flatten_iterSqlChunks _ _

/-- **A batch** whose rows have its columns. -/
theorem executeBatch_eq_ok_iff {batch : PreparedWriteBatch κ ν} {t u : Table κ ν}
    (hcolumns : ∀ row ∈ batch.rows, row.keys.toFinset = batch.columns.toFinset) :
    cfg.executeBatch t batch = .ok u
      ↔ (∀ rows ∈ cfg.statements batch, cfg.Executable batch.columns.toFinset rows)
        ∧ u = upserts cfg.conflictKeys t
          (batch.rows.map (cfg.rowProposal batch.columns.toFinset)) := by
  have hflatten : (cfg.statements batch).flatten = batch.rows := flatten_statements batch
  unfold executeBatch
  unfold statements at hflatten ⊢
  split
  · rw [executeStatement_eq_ok_iff]
    simp
  · rename_i hmode
    rw [if_neg hmode] at hflatten
    rw [foldlM_eq_ok_iff (g := fun t rows =>
        upserts cfg.conflictKeys t (rows.map (cfg.rowProposal batch.columns.toFinset)))
      (P := cfg.Executable batch.columns.toFinset), foldl_upserts, List.flatMap_def,
      ← List.map_flatten, hflatten]
    intro s rows hrows v
    have hmem : ∀ row ∈ rows, row ∈ batch.rows := by
      intro row hrow
      rw [← hflatten]
      exact List.mem_flatten.2 ⟨rows, hrows, hrow⟩
    unfold executeChunk
    rw [if_pos (fun row hrow => hcolumns row (hmem row hrow)), executeStatement_eq_ok_iff]

omit [DecidableEq ν] in
/-- A single-row upsert proposes no key twice. -/
theorem executable_singleton {columns : Finset κ} {row : Row κ ν} :
    cfg.Executable columns [row] ↔ columns ≠ ∅ ∧ cfg.conflictKeys ≠ [] := by
  have hsingle : (keysOf cfg.conflictKeys ([row].map (cfg.tupleOf columns))).Nodup := by
    have hlength : (keysOf cfg.conflictKeys ([row].map (cfg.tupleOf columns))).length ≤ 1 :=
      List.length_filterMap_le _ _
    match h : keysOf cfg.conflictKeys ([row].map (cfg.tupleOf columns)) with
    | [] => exact List.nodup_nil
    | [k] => exact List.nodup_singleton k
    | k :: k' :: ks =>
      rw [h] at hlength
      simp at hlength
  exact ⟨fun h => ⟨h.1, h.2.1⟩, fun h => ⟨h.1, h.2, .inr hsingle⟩⟩

/-- **One upsert per row.** -/
theorem upsertEach_eq_ok_iff {t u : Table κ ν} {rows : List (Row κ ν)} :
    cfg.upsertEach t rows = .ok u
      ↔ (∀ row ∈ rows, row.keys.toFinset ≠ ∅ ∧ cfg.conflictKeys ≠ [])
        ∧ u = upserts cfg.conflictKeys t
          (rows.map (fun row => cfg.rowProposal row.keys.toFinset row)) := by
  unfold upsertEach
  rw [foldlM_eq_ok_iff (g := fun t row =>
      upserts cfg.conflictKeys t [cfg.rowProposal row.keys.toFinset row])
    (P := fun row => row.keys.toFinset ≠ ∅ ∧ cfg.conflictKeys ≠ []), foldl_upserts]
  · rw [← List.map_eq_flatMap]
  · intro s row _ v
    rw [executeStatement_eq_ok_iff, executable_singleton]
    rfl

end WriteConfig

import AgoraPlugins.Postgres.WritePlan

/-!
# Upserts in batches

In strict mode all rows have the same columns. What flushes leave in the table
should be what one upsert per row would leave, however the rows are split into
flushes and the flushes into statements.

A statement that sets columns may not propose one key twice. So the law holds of
exactly the flushes in which no statement does, or in which there is nothing to
set; a second row for a key in the same statement makes the flush fail.
-/

open Upsert

namespace WriteConfig

variable {κ ν : Type} [DecidableEq κ] [DecidableEq ν] {cfg : WriteConfig κ ν}

/-- The batch a flush in strict mode makes of its rows. -/
def strictBatch (rows : List (Row κ ν)) : PreparedWriteBatch κ ν :=
  ⟨(rows.head?.map AList.keys).getD [], rows⟩

/-- **A flush in strict mode.** -/
theorem flush_strict_eq_ok_iff (hpolicy : cfg.policy = .strict) {columns : Finset κ}
    {t u : Table κ ν} {rows : List (Row κ ν)}
    (hcolumns : ∀ row ∈ rows, row.keys.toFinset = columns) :
    cfg.flush t rows = .ok u
      ↔ (rows ≠ [] → ∀ chunk ∈ cfg.statements (strictBatch rows), cfg.Executable columns chunk)
        ∧ u = upserts cfg.conflictKeys t (rows.map (cfg.rowProposal columns)) := by
  cases rows with
  | nil =>
    show Except.ok t = .ok u ↔ _
    simp [upserts, eq_comm]
  | cons row rows =>
    have hbatch : cfg.preparedWriteBatches (row :: rows) = .ok [strictBatch (row :: rows)] := by
      unfold preparedWriteBatches
      rw [hpolicy]
      rfl
    have hflush : cfg.flush t (row :: rows) = cfg.executeBatch t (strictBatch (row :: rows)) := by
      unfold flush
      rw [hbatch]
      show Except.bind (cfg.executeBatch t (strictBatch (row :: rows))) Except.ok = _
      cases cfg.executeBatch t (strictBatch (row :: rows)) <;> rfl
    have hhead : (strictBatch (row :: rows)).columns.toFinset = columns :=
      hcolumns row List.mem_cons_self
    rw [hflush, executeBatch_eq_ok_iff, hhead]
    · simp [strictBatch]
    · rw [hhead]
      exact hcolumns

/-- **Flushes in strict mode do what one upsert per row would do**, succeeding,
in exactly the cases in which every statement can be executed: unless there is
nothing to set, no statement proposes a key twice. -/
theorem flushes_eq_upsertEach_iff (hpolicy : cfg.policy = .strict) (columns : Finset κ)
    (batches : List (List (Row κ ν)))
    (hcolumns : ∀ rows ∈ batches, ∀ row ∈ rows, row.keys.toFinset = columns)
    (t : Table κ ν) :
    (∃ u, batches.foldlM cfg.flush t = .ok u ∧ cfg.upsertEach t batches.flatten = .ok u)
      ↔ ∀ rows ∈ batches, rows ≠ [] →
        ∀ chunk ∈ cfg.statements (strictBatch rows), cfg.Executable columns chunk := by
  have hflushes : ∀ u, batches.foldlM cfg.flush t = .ok u
      ↔ (∀ rows ∈ batches, rows ≠ [] →
          ∀ chunk ∈ cfg.statements (strictBatch rows), cfg.Executable columns chunk)
        ∧ u = upserts cfg.conflictKeys t (batches.flatten.map (cfg.rowProposal columns)) := by
    intro u
    rw [foldlM_eq_ok_iff (g := fun t rows =>
        upserts cfg.conflictKeys t (rows.map (cfg.rowProposal columns)))
      (P := fun rows => rows ≠ [] →
        ∀ chunk ∈ cfg.statements (strictBatch rows), cfg.Executable columns chunk),
      foldl_upserts, List.flatMap_def, ← List.map_flatten]
    exact fun s rows hrows v => flush_strict_eq_ok_iff hpolicy (hcolumns rows hrows)
  have hmem : ∀ row ∈ batches.flatten, row.keys.toFinset = columns := by
    intro row hrow
    obtain ⟨rows, hrows, hrow⟩ := List.mem_flatten.1 hrow
    exact hcolumns rows hrows row hrow
  constructor
  · rintro ⟨u, hu, _⟩
    exact ((hflushes u).1 hu).1
  · intro h
    refine ⟨_, (hflushes _).2 ⟨h, rfl⟩, upsertEach_eq_ok_iff.2 ⟨fun row hrow => ?_, ?_⟩⟩
    · obtain ⟨rows, hrows, hrow'⟩ := List.mem_flatten.1 hrow
      -- the row is in some statement, which can be executed
      have hchunk : row ∈ (cfg.statements (strictBatch rows)).flatten := by
        rw [flatten_statements]
        exact hrow'
      obtain ⟨chunk, hchunk, _⟩ := List.mem_flatten.1 hchunk
      have hexec := h rows hrows (List.ne_nil_of_mem hrow') chunk hchunk
      rw [hmem row hrow]
      exact ⟨hexec.1, hexec.2.1⟩
    · congr 1
      refine List.map_congr_left (fun row hrow => ?_)
      rw [hmem row hrow]

/-! ## Two writes of a key -/

/-- Orders by their number, with an amount. -/
def orders : WriteConfig String ℕ where
  conflictKeys := ["id"]

/-- An order as the row mapper makes it. -/
def orderRow (number amount : ℕ) : Row String ℕ :=
  (AList.singleton "id" (some number)).insert "amount" (some amount)

/-- A table with no rows. -/
def emptyTable : Table String ℕ := ⟨fun _ => none, 0⟩

/-- The first order comes again in the second flush. -/
theorem flushes_eq_upsertEach_orders :
    ∃ u, [[orderRow 1 10, orderRow 2 20], [orderRow 1 30]].foldlM orders.flush emptyTable = .ok u
      ∧ orders.upsertEach emptyTable
        [[orderRow 1 10, orderRow 2 20], [orderRow 1 30]].flatten = .ok u :=
  (flushes_eq_upsertEach_iff rfl {"id", "amount"}
    [[orderRow 1 10, orderRow 2 20], [orderRow 1 30]] (by decide) emptyTable).2 (by decide)

/-- The same order twice in one flush: the statement fails. -/
theorem flush_not_eq_upsertEach :
    ¬ ∃ u, [[orderRow 1 10, orderRow 1 30]].foldlM orders.flush emptyTable = .ok u
      ∧ orders.upsertEach emptyTable [[orderRow 1 10, orderRow 1 30]].flatten = .ok u := by
  rintro ⟨u, hflush, _⟩
  cases hflush

end WriteConfig

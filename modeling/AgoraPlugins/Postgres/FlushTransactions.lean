import AgoraPlugins.Fallible
import AgoraPlugins.Postgres.WritePlan
import Mathlib.Data.Finset.Sort
import Mathlib.Data.List.Enum

/-!
# A flush, statement by statement

A flush takes a snapshot of the buffer, makes batches of it, and writes them: one batch in a
transaction of its own, which is attempted again when it fails, or all batches of aligned rows
in one transaction. A batch is written by one `INSERT` a chunk, by a COPY, or by a COPY into a
staging table and an `INSERT` from there. Each of these can fail, with what the database
raises or with what the code itself does, and so can the commit. Only after all of it, or
where an exception leaves it, are rows taken out of the buffer, by their positions in the
snapshot.

Here a transaction is opened up: the rows of the statements that have been executed in it are
`pending`, and a commit makes them `committed`. Rows carry their positions, so it can be told
which rows of the buffer a committed row stands for. The law is that a flush leaves in the
buffer, in order, the rows it has not committed (`buffer_eq_remaining_of_flush`), whichever
await point it fails at.

Rolling back may fail. The connection is closed then, as after any other exception, and the
server drops what was pending. A cancellation is no exception, and leaves it.
-/

open Effect

/-- **The settings of a flush**: the writer's and the insert mode (`copyMerge` is not looked
at), what quoting the columns' names raises, and what the database raises for a row that it
rejects. -/
structure FlushConfig (κ ν : Type) extends WriteConfig κ ν where
  insertMode : InsertMode := .sql
  planError : List κ → Option Exc := fun _ => none
  rejects : Row κ ν → Option Exc := fun _ => none
  /-- the `sqlstate` of a database error -/
  sqlstate : Exc → Option String := fun _ => none

/-- **`_PreparedWriteBatch`**, its `rows` and its `row_indexes` side by side. -/
structure IndexedBatch (κ ν : Type) where
  columns : List κ
  rows : List (Row κ ν × ℕ)

/-- The positions in the snapshot. -/
def IndexedBatch.rowIndexes {κ ν : Type} (batch : IndexedBatch κ ν) : Finset ℕ :=
  (batch.rows.map Prod.snd).toFinset

/-- **The state of a flush**: the buffer, the replies it will meet, and the rows of executed
statements, in the transaction that is open and in those that are committed. -/
structure FlushState (κ ν : Type) where
  buffer : List (Row κ ν) := []
  script : List Reply := []
  pending : List (Row κ ν × ℕ) := []
  committed : List (Row κ ν × ℕ) := []

/-- The positions of the committed rows. -/
def FlushState.committedIndexes {κ ν : Type} (s : FlushState κ ν) : Finset ℕ :=
  (s.committed.map Prod.snd).toFinset

/-- The computations of a flush. -/
abbrev FlushM (κ ν β : Type) := EStateM PostgresSink.Raised (FlushState κ ν) β

namespace FlushConfig

open PostgresSink (Raised)

/-- The retry helper, on computations of a flush. -/
abbrev RetryAsync (κ ν : Type) :=
  Effect.Retry (FlushState κ ν) (fun r : Raised => r.isException = true) (.other .cancelled)

variable {κ ν β : Type}

/-! ## Await points and errors -/

/-- An await point: it takes the next reply of the script. -/
def await : FlushM κ ν PUnit :=
  zoom FlushState.script (fun s script => { s with script })
    (EStateM.adaptExcept Raised.other nextReply)

/-- A value, or what getting it raised. -/
def ofExcept {ε : Type} (raised : ε → Raised) : Except ε β → FlushM κ ν β
  | .ok b => pure b
  | .error e => throw (raised e)

/-- What happens to `except Exception` on the way out. -/
def onException (m : FlushM κ ν β) (handler : FlushM κ ν PUnit) : FlushM κ ν β :=
  tryCatch m (fun r =>
    if r.isException then do
      handler
      throw r
    else throw r)

variable [DecidableEq κ] (cfg : FlushConfig κ ν)

/-- **`wrap_write_error`** for this writer's errors. -/
def wrapWriteError : Raised → Raised :=
  PostgresSink.wrapWriteError (T := Row κ ν) (ρ := Row κ ν)
    { rowMapper := .ok, sqlstate := cfg.sqlstate, batchSize_pos := PostgresSink.one_le_batchSize }

/-- Exceptions are wrapped on their way out. -/
def wrapping (m : FlushM κ ν β) : FlushM κ ν β :=
  tryCatch m (fun r => throw (cfg.wrapWriteError r))

/-! ## Batches -/

/-- A row joins the batch with its columns, or begins one. -/
def addIndexedRow (columns : List κ) (row : Row κ ν × ℕ) :
    List (IndexedBatch κ ν) → List (IndexedBatch κ ν)
  | [] => [⟨columns, [row]⟩]
  | batch :: batches =>
    if batch.columns = columns then { batch with rows := batch.rows ++ [row] } :: batches
    else batch :: addIndexedRow columns row batches

/-- **`align_rows_to_target`.** -/
def alignIndexedRows (rows : List (Row κ ν)) :
    Except PostgresSinkWriteError (List (IndexedBatch κ ν)) := do
  let normalized ← rows.mapM cfg.normalizeRow
  pure (normalized.zipIdx.foldl
    (fun batches row => addIndexedRow (cfg.orderedColumns row.1) row batches) [])

/-- **`prepared_write_batches`.** -/
def preparedBatches (rows : List (Row κ ν)) : FlushM κ ν (List (IndexedBatch κ ν)) :=
  match rows with
  | [] => pure []
  | row :: _ =>
    match cfg.policy with
    | .strict => pure [⟨row.keys, rows.zipIdx⟩]
    | .alignToTarget => do
      await -- the target columns
      ofExcept .writeError (cfg.alignIndexedRows rows)

/-! ## Statements -/

/-- The columns' names are quoted. -/
def plan (columns : List κ) : FlushM κ ν PUnit :=
  match cfg.planError columns with
  | none => pure ⟨⟩
  | some e => throw (.other e)

/-- **A statement that inserts rows**: with a row that the database rejects it fails. -/
def insertRows (rows : List (Row κ ν × ℕ)) : FlushM κ ν PUnit := do
  await
  match rows.findSome? (fun row => cfg.rejects row.1) with
  | none => modify (fun s => { s with pending := s.pending ++ rows })
  | some e => throw (.other e)

/-- The text of the error goes on with the columns that were expected. -/
def mismatchedColumns : Exc :=
  .exception "ValueError" "PostgresSink rows in the same batch must have identical column sets."

/-- `flatten_rows`. -/
def flattenRows (columns : List κ) (rows : List (Row κ ν × ℕ)) : FlushM κ ν PUnit :=
  if ∀ row ∈ rows, row.1.keys.toFinset = columns.toFinset then pure ⟨⟩
  else throw (.other mismatchedColumns)

/-- `iter_sql_chunks`, on rows with their positions. -/
def indexedChunks (rows : List (Row κ ν × ℕ)) (columns : List κ) :
    List (List (Row κ ν × ℕ)) :=
  let chunkSize := cfg.statementRowLimit columns.length
  (List.range' 0 ((rows.length + chunkSize - 1) / chunkSize) chunkSize).map
    (fun start => (rows.drop start).take chunkSize)

/-- **`execute_sql_batch`.** -/
def executeSqlBatch (rows : List (Row κ ν × ℕ)) (columns : List κ) : FlushM κ ν PUnit :=
  (cfg.indexedChunks rows columns).forM (fun chunk => do
    cfg.plan columns
    flattenRows columns chunk
    cfg.insertRows chunk)

/-- `copy.write_row` of the columns of a row, if it has them. -/
def writeRow (columns : List κ) (row : Row κ ν × ℕ) : FlushM κ ν PUnit :=
  if ∀ c ∈ columns, c ∈ row.1.keys then await
  else throw (.other (.exception "KeyError" ""))

/-- **`execute_copy_batch`.** The rows are there when the COPY ends. -/
def executeCopyBatch (rows : List (Row κ ν × ℕ)) (columns : List κ) : FlushM κ ν PUnit := do
  cfg.plan columns
  await
  rows.forM (writeRow columns)
  cfg.insertRows rows

/-- **`execute_copy_merge_batch`.** -/
def executeCopyMergeBatch (rows : List (Row κ ν × ℕ)) (columns : List κ) :
    FlushM κ ν PUnit := do
  cfg.plan columns
  await -- the staging table
  await
  rows.forM (writeRow columns)
  await -- the end of the COPY
  cfg.insertRows rows

/-- **A batch is executed** in the mode that is configured. -/
def executeBatch (batch : IndexedBatch κ ν) : FlushM κ ν PUnit :=
  match cfg.insertMode with
  | .sql => cfg.executeSqlBatch batch.rows batch.columns
  | .copy => cfg.executeCopyBatch batch.rows batch.columns
  | .copyMerge => cfg.executeCopyMergeBatch batch.rows batch.columns

/-! ## Transactions -/

/-- `conn.commit()`. -/
def commit : FlushM κ ν PUnit := do
  await
  modify (fun s => { s with committed := s.committed ++ s.pending, pending := [] })

/-- What the connection's transaction has pending is gone. -/
def dropPending : FlushM κ ν PUnit := modify (fun s => { s with pending := [] })

/-- `rollback_best_effort`. -/
def rollbackBestEffort : FlushM κ ν PUnit :=
  tryCatch
    (do
      await
      dropPending)
    (fun r => if r.isException then pure ⟨⟩ else throw r)

/-- `write_connection`: after an exception the connection is closed. -/
def onConnection (m : FlushM κ ν PUnit) : FlushM κ ν PUnit := do
  await -- the connection
  onException m dropPending

/-- **One attempt**: a transaction with all the statements of some batches. -/
def transaction (batches : List (IndexedBatch κ ν)) : FlushM κ ν PUnit :=
  onConnection (onException
    (do
      batches.forM cfg.executeBatch
      commit)
    rollbackBestEffort)

variable (retry : RetryAsync κ ν)

/-- Only COPY is not attempted again. -/
def writeBatches (batches : List (IndexedBatch κ ν)) : FlushM κ ν PUnit :=
  match cfg.insertMode with
  | .copy => cfg.transaction batches
  | _ => retry.run (cfg.transaction batches)

/-- `flush_via_sql`, `flush_via_copy` and `flush_via_copy_merge`. The last one quotes the
columns' names before anything is wrapped. -/
def flushVia (batch : IndexedBatch κ ν) : FlushM κ ν PUnit :=
  match cfg.insertMode with
  | .copyMerge => do
    cfg.plan batch.columns
    cfg.wrapping (cfg.writeBatches retry [batch])
  | _ => cfg.wrapping (cfg.writeBatches retry [batch])

/-- `flush_aligned_batches_atomically`. -/
def flushAlignedBatchesAtomically (batches : List (IndexedBatch κ ν)) : FlushM κ ν PUnit :=
  cfg.wrapping (cfg.writeBatches retry batches)

/-! ## A flush -/

/-- **`_discard_buffer_indexes`**, from the last one on. -/
def discardBufferIndexes (indexes : Finset ℕ) : FlushM κ ν PUnit :=
  modify (fun s => { s with
    buffer := (indexes.sort (fun i j => j ≤ i)).foldl List.eraseIdx s.buffer })

/-- The loop over the batches: an exception takes the rows of those that are flushed out of
the buffer. -/
def flushEach (flushedIndexes : Finset ℕ) : List (IndexedBatch κ ν) → FlushM κ ν PUnit
  | [] => pure ⟨⟩
  | batch :: batches => do
    onException (cfg.flushVia retry batch) (discardBufferIndexes flushedIndexes)
    flushEach (flushedIndexes ∪ batch.rowIndexes) batches

/-- The batches of a flush are written. -/
def flushBatches (batches : List (IndexedBatch κ ν)) : FlushM κ ν PUnit :=
  if cfg.policy = .alignToTarget ∧ 1 < batches.length then
    onException (cfg.flushAlignedBatchesAtomically retry batches) (discardBufferIndexes ∅)
  else cfg.flushEach retry ∅ batches

/-- **`flush`.** -/
def flush : FlushM κ ν PUnit := do
  let rows := (← get).buffer
  if rows.isEmpty then pure ⟨⟩
  else do
    let batches ← cfg.wrapping (cfg.preparedBatches rows)
    cfg.flushBatches retry batches
    discardBufferIndexes (Finset.range rows.length)

/-! ## What a computation executes -/

/-- **The statements of some rows are executed**: if all goes well they are pending. Nothing
else changes, however it ends. -/
def Executes (rows : List (Row κ ν × ℕ)) (m : FlushM κ ν β) : Prop :=
  ∀ s, Ensures m s (fun r t => t.buffer = s.buffer ∧ t.committed = s.committed
    ∧ ∀ b, r = .ok b → t.pending = s.pending ++ rows)

section Executes

variable {cfg} {rows : List (Row κ ν × ℕ)}

omit [DecidableEq κ] in
theorem executes_pure (b : β) : Executes [] (pure b : FlushM κ ν β) := by
  intro s
  rw [ensures_pure]
  exact ⟨rfl, rfl, fun _ _ => (List.append_nil _).symm⟩

omit [DecidableEq κ] in
/-- What raises may have inserted anything. -/
theorem executes_throw (r : Raised) : Executes rows (throw r : FlushM κ ν β) := by
  intro s
  rw [ensures_throw]
  exact ⟨rfl, rfl, nofun⟩

omit [DecidableEq κ] in
theorem executes_await : Executes [] (await : FlushM κ ν PUnit) := by
  intro s
  unfold await
  rw [ensures_zoom, ensures_adaptExcept]
  exact ensures_nextReply (fun _ => ⟨rfl, rfl, fun _ _ => (List.append_nil _).symm⟩)
    (fun _ _ => ⟨rfl, rfl, nofun⟩)

omit [DecidableEq κ] in
theorem Executes.bind {γ : Type} {rows' : List (Row κ ν × ℕ)} {m : FlushM κ ν β}
    {f : β → FlushM κ ν γ} (hm : Executes rows m) (hf : ∀ b, Executes rows' (f b)) :
    Executes (rows ++ rows') (m >>= f) := by
  intro s
  refine (hm s).bind (fun b t ht => ?_) (fun r t ht => ⟨ht.1, ht.2.1, nofun⟩)
  obtain ⟨hbuffer, hcommitted, hpending⟩ := ht
  refine (hf b t).mono (fun r u hu => ⟨hu.1.trans hbuffer, hu.2.1.trans hcommitted, ?_⟩)
  intro c hc
  rw [hu.2.2 c hc, hpending b rfl, List.append_assoc]

omit [DecidableEq κ] in
/-- A computation that executes nothing comes first. -/
theorem Executes.after {γ : Type} {m : FlushM κ ν β} {f : β → FlushM κ ν γ}
    (hm : Executes [] m) (hf : ∀ b, Executes rows (f b)) : Executes rows (m >>= f) :=
  hm.bind hf

omit [DecidableEq κ] in
theorem executes_forM {γ : Type} {f : γ → FlushM κ ν PUnit} {g : γ → List (Row κ ν × ℕ)} :
    ∀ {xs : List γ}, (∀ x ∈ xs, Executes (g x) (f x)) → Executes (xs.flatMap g) (xs.forM f)
  | [], _ => executes_pure _
  | x :: _, hf => (hf x List.mem_cons_self).bind
      (fun _ => executes_forM (fun y hy => hf y (List.mem_cons_of_mem x hy)))

omit [DecidableEq κ] in
/-- Loops that execute nothing. -/
theorem executes_nil_forM {γ : Type} {f : γ → FlushM κ ν PUnit} {xs : List γ}
    (hf : ∀ x ∈ xs, Executes [] (f x)) : Executes [] (xs.forM f) := by
  have h : Executes (xs.flatMap (fun _ => [])) (xs.forM f) := executes_forM hf
  rwa [List.flatMap_eq_nil_iff.2 (fun _ _ => rfl)] at h

omit [DecidableEq κ] in
theorem executes_plan (columns : List κ) : Executes [] (cfg.plan columns) := by
  unfold plan
  cases cfg.planError columns with
  | none => exact executes_pure _
  | some e => exact executes_throw _

omit [DecidableEq κ] in
/-- **A statement** inserts its rows. -/
theorem executes_insertRows (rows : List (Row κ ν × ℕ)) :
    Executes rows (cfg.insertRows rows) := by
  refine executes_await.after (fun _ => ?_)
  cases rows.findSome? (fun row => cfg.rejects row.1) with
  | some e => exact executes_throw _
  | none =>
    intro s
    exact ⟨rfl, rfl, fun _ _ => rfl⟩

omit [DecidableEq κ] in
theorem flatten_indexedChunks (rows : List (Row κ ν × ℕ)) (columns : List κ) :
    (cfg.indexedChunks rows columns).flatten = rows :=
  WriteConfig.flatten_slices_of_pos (WriteConfig.statementRowLimit_pos columns.length) rows

/-- **A batch of statements** inserts all its rows, chunk after chunk. -/
theorem executes_sqlBatch (rows : List (Row κ ν × ℕ)) (columns : List κ) :
    Executes rows (cfg.executeSqlBatch rows columns) := by
  have h : Executes ((cfg.indexedChunks rows columns).flatMap id)
      (cfg.executeSqlBatch rows columns) := by
    refine executes_forM (fun chunk _ => (executes_plan columns).after (fun _ => ?_))
    refine Executes.after ?_ (fun _ => executes_insertRows chunk)
    unfold flattenRows
    split
    · exact executes_pure _
    · exact executes_throw _
  rwa [List.flatMap_id, flatten_indexedChunks] at h

/-- A row that is copied is not inserted before the copy ends. -/
theorem executes_writeRow (columns : List κ) (row : Row κ ν × ℕ) :
    Executes [] (writeRow columns row) := by
  unfold writeRow
  split
  · exact executes_await
  · exact executes_throw _

/-- **A copy** inserts its rows. -/
theorem executes_copyBatch (rows : List (Row κ ν × ℕ)) (columns : List κ) :
    Executes rows (cfg.executeCopyBatch rows columns) :=
  (executes_plan columns).after (fun _ => executes_await.after (fun _ =>
    (executes_nil_forM (fun row _ => executes_writeRow columns row)).after (fun _ =>
      executes_insertRows rows)))

theorem executes_copyMergeBatch (rows : List (Row κ ν × ℕ)) (columns : List κ) :
    Executes rows (cfg.executeCopyMergeBatch rows columns) :=
  (executes_plan columns).after (fun _ => executes_await.after (fun _ =>
    executes_await.after (fun _ =>
      (executes_nil_forM (fun row _ => executes_writeRow columns row)).after (fun _ =>
        executes_await.after (fun _ => executes_insertRows rows)))))

/-- **A batch**, in whichever mode. -/
theorem executes_batch (batch : IndexedBatch κ ν) :
    Executes batch.rows (cfg.executeBatch batch) := by
  unfold executeBatch
  cases cfg.insertMode with
  | sql => exact executes_sqlBatch _ _
  | copy => exact executes_copyBatch _ _
  | copyMerge => exact executes_copyMergeBatch _ _

end Executes

/-! ## All the rows or none -/

/-- **All the rows are committed, or none**: on a connection with nothing pending the rows are
committed if all goes well. However it fails, none of them is, and nothing is pending either
after an exception. -/
def Commits (rows : List (Row κ ν × ℕ)) (m : FlushM κ ν PUnit) : Prop :=
  ∀ s, s.pending = [] → Ensures m s (fun r t => t.buffer = s.buffer ∧
    match r with
    | .ok _ => t.pending = [] ∧ t.committed = s.committed ++ rows
    | .error r => t.committed = s.committed ∧ (r.isException = true → t.pending = []))

section Commits

variable {rows : List (Row κ ν × ℕ)} {s : FlushState κ ν}

omit [DecidableEq κ] in
/-- **The await rule.** -/
theorem ensures_await {Q : Except Raised PUnit → FlushState κ ν → Prop}
    (hok : ∀ script, Q (.ok ⟨⟩) { s with script })
    (herror : ∀ e script, Q (.error (.other e)) { s with script }) : Ensures await s Q := by
  unfold await
  rw [ensures_zoom, ensures_adaptExcept]
  exact ensures_nextReply hok herror

omit [DecidableEq κ] in
/-- **The handler's rule**: what an exception is raised with is what the handler leaves. -/
theorem ensures_onException {m : FlushM κ ν β} {handler : FlushM κ ν PUnit}
    {P Q : Except Raised β → FlushState κ ν → Prop} (hm : Ensures m s P)
    (hok : ∀ b t, P (.ok b) t → Q (.ok b) t)
    (hhandler : ∀ r t, P (.error r) t → r.isException = true →
      Ensures handler t (fun r' u => match r' with
        | .ok _ => Q (.error r) u
        | .error r' => Q (.error r') u))
    (herror : ∀ r t, P (.error r) t → r.isException = false → Q (.error r) t) :
    Ensures (onException m handler) s Q := by
  unfold onException
  rw [ensures_tryCatch]
  refine hm.mono (fun r t h => ?_)
  cases r with
  | ok b => exact hok b t h
  | error r =>
    show Ensures (if r.isException = true then _ else _) t Q
    split
    · rename_i hr
      rw [ensures_bind]
      refine (hhandler r t h hr).mono (fun r' u hu => ?_)
      cases r' with
      | ok _ => exact hu
      | error _ => exact hu
    · rename_i hr
      exact herror r t h (Bool.eq_false_iff.2 hr)

omit [DecidableEq κ] in
/-- Rolling back touches what is pending only. -/
theorem ensures_rollbackBestEffort :
    Ensures rollbackBestEffort s (fun _ t => t.buffer = s.buffer ∧ t.committed = s.committed) := by
  unfold rollbackBestEffort
  rw [ensures_tryCatch, ensures_bind]
  refine ensures_await (fun _ => ⟨rfl, rfl⟩) (fun e _ => ?_)
  show Ensures (if (Raised.other e).isException = true then _ else _) _ _
  split
  · exact ⟨rfl, rfl⟩
  · exact ⟨rfl, rfl⟩

/-- What is so inside a transaction: the rows are committed, or it has failed and none is. -/
def Wrote (rows : List (Row κ ν × ℕ)) (s : FlushState κ ν) (r : Except Raised PUnit)
    (t : FlushState κ ν) : Prop :=
  t.buffer = s.buffer ∧ match r with
    | .ok _ => t.pending = [] ∧ t.committed = s.committed ++ rows
    | .error _ => t.committed = s.committed

/-- **What is executed and committed** is in the table. -/
theorem ensures_executeAndCommit (batches : List (IndexedBatch κ ν)) (hs : s.pending = []) :
    Ensures
      (do
        batches.forM cfg.executeBatch
        commit : FlushM κ ν PUnit)
      s (Wrote (batches.flatMap IndexedBatch.rows) s) := by
  refine (executes_forM (g := IndexedBatch.rows) (fun batch _ => executes_batch batch) s).bind
    (fun _ t ht => ?_) (fun _ _ ht => ⟨ht.1, ht.2.1⟩)
  obtain ⟨hbuffer, hcommitted, hpending⟩ := ht
  unfold commit
  rw [ensures_bind]
  refine ensures_await (fun script => ⟨hbuffer, rfl, ?_⟩) (fun _ _ => ⟨hbuffer, hcommitted⟩)
  show t.committed ++ t.pending = _
  rw [hcommitted, hpending ⟨⟩ rfl, hs, List.nil_append]

/-- **One attempt.** -/
theorem commits_transaction (batches : List (IndexedBatch κ ν)) :
    Commits (batches.flatMap IndexedBatch.rows) (cfg.transaction batches) := by
  intro s hs
  unfold transaction onConnection
  rw [ensures_bind]
  refine ensures_await (fun script => ?_) (fun e script => ⟨rfl, rfl, fun _ => hs⟩)
  have hbody := ensures_executeAndCommit cfg (s := { s with script := script })
    batches hs
  have hrolled : Ensures
      (onException
        (do
          batches.forM cfg.executeBatch
          commit)
        rollbackBestEffort)
      { s with script := script } (Wrote (batches.flatMap IndexedBatch.rows) s) := by
    refine ensures_onException hbody (fun _ _ h => h) (fun r t h _ => ?_) (fun _ _ h _ => h)
    refine ensures_rollbackBestEffort.mono (fun r' u hu => ?_)
    cases r' with
    | ok _ => exact ⟨hu.1.trans h.1, hu.2.trans h.2⟩
    | error _ => exact ⟨hu.1.trans h.1, hu.2.trans h.2⟩
  -- after an exception the connection is closed, whether it was rolled back or not
  refine ensures_onException hrolled (fun _ _ h => h) (fun r t h _ => ?_) (fun r t h hr => ?_)
  · exact ⟨h.1, h.2, fun _ => rfl⟩
  · refine ⟨h.1, h.2, fun h => ?_⟩
    rw [hr] at h
    cases h

omit [DecidableEq κ] in
/-- **A retried write.** A failed attempt has left nothing behind. -/
theorem Commits.retried (retry : RetryAsync κ ν) {m : FlushM κ ν PUnit} (hm : Commits rows m) :
    Commits rows (retry.run m) := by
  intro s hs
  refine Attempts.ensures (I := fun t => t.buffer = s.buffer ∧ t.committed = s.committed
    ∧ t.pending = []) (fun t ht => ?_) (retry.attempts m) ⟨rfl, rfl, hs⟩
  obtain ⟨hbuffer, hcommitted, hpending⟩ := ht
  refine (hm t hpending).mono (fun r u hu => ?_)
  rw [hbuffer, hcommitted] at hu
  refine ⟨hu, fun r' hr' htransient => ?_⟩
  subst hr'
  exact ⟨⟨hu.1, hu.2.1, hu.2.2 htransient⟩, hu.1, hu.2.1, nofun⟩

theorem commits_writeBatches (retry : RetryAsync κ ν) (batches : List (IndexedBatch κ ν)) :
    Commits (batches.flatMap IndexedBatch.rows) (cfg.writeBatches retry batches) := by
  have htransaction := commits_transaction cfg batches
  unfold writeBatches
  cases cfg.insertMode with
  | copy => exact htransaction
  | sql => exact htransaction.retried retry
  | copyMerge => exact htransaction.retried retry

omit [DecidableEq κ] in
/-- What is wrapped is an exception just if it was one. -/
theorem isException_wrapWriteError (r : Raised) :
    (cfg.wrapWriteError r).isException = r.isException := by
  cases r with
  | writeError error => rfl
  | other e =>
    cases e with
    | exception typeName message => rfl
    | cancelled => rfl

omit [DecidableEq κ] in
/-- An error that is wrapped commits nothing more. -/
theorem Commits.wrapping {m : FlushM κ ν PUnit} (hm : Commits rows m) :
    Commits rows (cfg.wrapping m) := by
  intro s hs
  unfold FlushConfig.wrapping
  rw [ensures_tryCatch]
  refine (hm s hs).mono (fun r t ht => ?_)
  cases r with
  | ok _ => exact ht
  | error r =>
    refine ⟨ht.1, ht.2.1, fun hr => ht.2.2 ?_⟩
    rwa [isException_wrapWriteError] at hr

/-- **A flush that returns** has committed the rows of its batch. -/
theorem commits_flushVia (retry : RetryAsync κ ν) (batch : IndexedBatch κ ν) :
    Commits batch.rows (cfg.flushVia retry batch) := by
  have hwrite : Commits batch.rows (cfg.wrapping (cfg.writeBatches retry [batch])) := by
    have h := (commits_writeBatches cfg retry [batch]).wrapping cfg
    rwa [List.flatMap_cons, List.flatMap_nil, List.append_nil] at h
  unfold flushVia
  cases cfg.insertMode with
  | sql => exact hwrite
  | copy => exact hwrite
  | copyMerge =>
    intro s hs
    rw [ensures_bind]
    unfold plan
    cases cfg.planError batch.columns with
    | none => exact hwrite s hs
    | some e => exact ⟨rfl, rfl, fun _ => hs⟩

end Commits

/-! ## Taking rows out of the buffer -/

/-- The rows at all other positions, in order. -/
def remaining {γ : Type} (indexes : Finset ℕ) (rows : List γ) : List γ :=
  (rows.zipIdx.filter (fun row => row.2 ∉ indexes)).map Prod.fst

section Remaining

variable {γ : Type}

theorem remaining_empty (rows : List γ) : remaining ∅ rows = rows := by
  unfold remaining
  rw [List.filter_eq_self.2 (by simp), List.zipIdx_map_fst]

theorem remaining_of_forall {indexes : Finset ℕ} {rows : List γ}
    (h : ∀ i < rows.length, i ∈ indexes) : remaining indexes rows = [] := by
  unfold remaining
  rw [List.map_eq_nil_iff, List.filter_eq_nil_iff]
  intro row hrow
  have hlt := List.snd_lt_of_mem_zipIdx hrow
  simp [h row.2 hlt]

/-- Positions before `n` say nothing about the rows from there on. -/
theorem filter_zipIdx_of_le {n : ℕ} {indexes : List ℕ} (h : ∀ i ∈ indexes, i < n)
    (rows : List γ) :
    ((rows.zipIdx n).filter (fun row => row.2 ∉ indexes)).map Prod.fst = rows := by
  rw [List.filter_eq_self.2, List.zipIdx_map_fst]
  intro row hrow
  have hle := List.le_snd_of_mem_zipIdx hrow
  have hmem : row.2 ∉ indexes := fun hi => absurd (h row.2 hi) (by omega)
  simp [hmem]

/-- **Erasing from the last position on** is the same as leaving the positions out: what is
erased later stands before. -/
theorem foldl_eraseIdx {indexes : List ℕ} (h : indexes.Pairwise (fun i j => j < i))
    (rows : List γ) :
    indexes.foldl List.eraseIdx rows
      = (rows.zipIdx.filter (fun row => row.2 ∉ indexes)).map Prod.fst := by
  induction indexes generalizing rows with
  | nil =>
    rw [List.filter_eq_self.2 (by simp), List.zipIdx_map_fst]
    rfl
  | cons i indexes ih =>
    obtain ⟨hlt, hrest⟩ := List.pairwise_cons.1 h
    rw [List.foldl_cons, ih hrest]
    rcases lt_or_ge i rows.length with hi | hi
    · have hrows : rows = rows.take i ++ rows[i] :: rows.drop (i + 1) := by simp
      have htake : (rows.take i).length = i := List.length_take_of_le hi.le
      have hleft : ((rows.take i).zipIdx.filter (fun row => row.2 ∉ i :: indexes))
          = ((rows.take i).zipIdx.filter (fun row => row.2 ∉ indexes)) := by
        refine List.filter_congr (fun row hrow => ?_)
        have hne : row.2 ≠ i := by
          have := List.snd_lt_of_mem_zipIdx hrow
          omega
        simp [hne]
      have hright : ∀ j ∈ i :: indexes, j < i + 1 := by
        intro j hj
        rcases List.mem_cons.1 hj with rfl | hj
        · exact Nat.lt_succ_self j
        · exact (hlt j hj).trans (Nat.lt_succ_self i)
      conv_rhs => rw [hrows]
      rw [List.eraseIdx_eq_take_drop_succ, List.zipIdx_append, List.zipIdx_append,
        List.filter_append, List.filter_append, List.map_append, List.map_append, htake,
        Nat.zero_add, filter_zipIdx_of_le hlt, hleft, List.zipIdx_cons,
        List.filter_cons_of_neg (by simp), filter_zipIdx_of_le hright]
    · rw [List.eraseIdx_of_length_le hi]
      congr 1
      refine List.filter_congr (fun row hrow => ?_)
      have hne : row.2 ≠ i := by
        have := List.snd_lt_of_mem_zipIdx hrow
        omega
      simp [hne]

/-- **Rows are taken out from the last on**, so that the indexes stay right. -/
theorem foldl_eraseIdx_sort (indexes : Finset ℕ) (rows : List γ) :
    (indexes.sort (fun i j => j ≤ i)).foldl List.eraseIdx rows = remaining indexes rows := by
  rw [foldl_eraseIdx (indexes.sortedGT_sort).pairwise]
  unfold remaining
  simp

end Remaining

/-! ## The batches of a flush -/

section Batches

/-- What of a row is written. -/
def prepareRow (row : Row κ ν) : Except PostgresSinkWriteError (Row κ ν) :=
  match cfg.policy with
  | .strict => .ok row
  | .alignToTarget => cfg.normalizeRow row

variable {cfg}

theorem rows_addIndexedRow (columns : List κ) (row : Row κ ν × ℕ)
    (batches : List (IndexedBatch κ ν)) :
    ((addIndexedRow columns row batches).flatMap IndexedBatch.rows).Perm
      (row :: batches.flatMap IndexedBatch.rows) := by
  induction batches with
  | nil => exact List.Perm.refl _
  | cons batch batches ih =>
    unfold addIndexedRow
    split
    · rw [List.flatMap_cons, List.flatMap_cons]
      exact (List.perm_append_singleton row batch.rows).append_right _
    · rw [List.flatMap_cons, List.flatMap_cons]
      exact (ih.append_left batch.rows).trans List.perm_middle

variable (cfg) in
theorem rows_foldl (rows : List (Row κ ν × ℕ)) (batches : List (IndexedBatch κ ν)) :
    ((rows.foldl (fun batches row => addIndexedRow (cfg.orderedColumns row.1) row batches)
        batches).flatMap IndexedBatch.rows).Perm
      (rows ++ batches.flatMap IndexedBatch.rows) := by
  induction rows generalizing batches with
  | nil => exact List.Perm.refl _
  | cons row rows ih =>
    rw [List.foldl_cons]
    exact (ih _).trans (((rows_addIndexedRow _ row batches).append_left rows).trans
      List.perm_middle)

/-- **Every row is in a batch**, in the form in which it is written; in strict mode there is
one batch. -/
theorem ensures_preparedBatches (rows : List (Row κ ν)) (s : FlushState κ ν) :
    Ensures (cfg.preparedBatches rows) s (fun r t => t.buffer = s.buffer
      ∧ t.committed = s.committed ∧ t.pending = s.pending
      ∧ ∀ batches, r = .ok batches → (cfg.policy = .strict → batches.length ≤ 1)
        ∧ ∃ prepared, rows.mapM cfg.prepareRow = .ok prepared
          ∧ (batches.flatMap IndexedBatch.rows).Perm prepared.zipIdx) := by
  unfold preparedBatches
  cases rows with
  | nil =>
    refine ⟨rfl, rfl, rfl, fun batches h => ?_⟩
    cases h
    exact ⟨fun _ => Nat.zero_le 1, [], rfl, List.Perm.refl _⟩
  | cons row rows =>
    unfold prepareRow
    dsimp only
    cases cfg.policy with
    | strict =>
      refine ⟨rfl, rfl, rfl, fun batches h => ?_⟩
      cases h
      refine ⟨fun _ => le_rfl, row :: rows, Fallible.mapM_eq_self (fun _ _ => rfl), ?_⟩
      rw [List.flatMap_singleton]
    | alignToTarget =>
      rw [ensures_bind]
      refine ensures_await (fun script => ?_) (fun _ _ => ⟨rfl, rfl, rfl, nofun⟩)
      show Ensures (ofExcept _ ((row :: rows).mapM cfg.normalizeRow >>= _)) _ _
      cases hnormalized : (row :: rows).mapM cfg.normalizeRow with
      | error e => exact ⟨rfl, rfl, rfl, nofun⟩
      | ok normalized =>
        refine ⟨rfl, rfl, rfl, fun batches h => ?_⟩
        cases h
        refine ⟨nofun, normalized, rfl, ?_⟩
        have hperm := rows_foldl cfg normalized.zipIdx []
        rwa [List.flatMap_nil, List.append_nil] at hperm

end Batches

/-! ## A flush leaves what it has not committed -/

section Flush

variable (retry : RetryAsync κ ν)

omit [DecidableEq κ] in
/-- An exception takes nothing out of the buffer if nothing is flushed. -/
theorem Commits.discarding {rows : List (Row κ ν × ℕ)} {m : FlushM κ ν PUnit}
    (hm : Commits rows m) : Commits rows (onException m (discardBufferIndexes ∅)) := by
  intro s hs
  refine ensures_onException (hm s hs) (fun _ _ h => h) (fun r t h _ => ?_) (fun _ _ h _ => h)
  unfold discardBufferIndexes
  rw [ensures_modify, foldl_eraseIdx_sort, remaining_empty]
  exact h

/-- **The batches of a flush**: all their rows are committed or none. There is one batch, or
one transaction. -/
theorem commits_flushBatches {batches : List (IndexedBatch κ ν)}
    (hone : cfg.policy = .strict → batches.length ≤ 1) :
    Commits (batches.flatMap IndexedBatch.rows) (cfg.flushBatches retry batches) := by
  unfold flushBatches
  split
  · exact ((commits_writeBatches cfg retry batches).wrapping cfg).discarding
  · rename_i hmany
    have hlength : batches.length ≤ 1 := by
      cases hpolicy : cfg.policy with
      | strict => exact hone hpolicy
      | alignToTarget => exact Nat.not_lt.1 (fun h => hmany ⟨hpolicy, h⟩)
    match batches, hlength with
    | [], _ =>
      intro s hs
      exact ⟨rfl, hs, (List.append_nil _).symm⟩
    | [batch], _ =>
      intro s hs
      unfold flushEach flushEach
      rw [List.flatMap_singleton]
      refine ((commits_flushVia cfg retry batch).discarding s hs).bind (fun _ _ h => h)
        (fun _ _ h => h)

/-- **A flush** on a connection with nothing pending: it commits what is in the buffer and
empties it, or it fails and does neither. -/
theorem ensures_flush {s : FlushState κ ν} (hs : s.pending = []) :
    Ensures (cfg.flush retry) s (fun r t => match r with
      | .ok _ => t.buffer = [] ∧ t.pending = [] ∧ ∃ prepared rows,
          s.buffer.mapM cfg.prepareRow = .ok prepared ∧ rows.Perm prepared.zipIdx
            ∧ t.committed = s.committed ++ rows
      | .error r => t.buffer = s.buffer ∧ t.committed = s.committed
          ∧ (r.isException = true → t.pending = [])) := by
  unfold flush
  rw [ensures_bind, ensures_get]
  show Ensures (if s.buffer.isEmpty then _ else _) _ _
  split
  · rename_i hempty
    have hnil := List.isEmpty_iff.1 hempty
    refine ⟨hnil, hs, [], [], ?_, List.Perm.refl _, (List.append_nil _).symm⟩
    rw [hnil]
    rfl
  · unfold wrapping
    rw [ensures_bind, ensures_tryCatch]
    refine (ensures_preparedBatches s.buffer s).mono (fun r t ht => ?_)
    obtain ⟨hbuffer, hcommitted, hpending, hbatches⟩ := ht
    cases r with
    | error r => exact ⟨hbuffer, hcommitted, fun _ => hpending.trans hs⟩
    | ok batches =>
      obtain ⟨hone, prepared, hprepared, hperm⟩ := hbatches batches rfl
      refine (commits_flushBatches cfg retry hone t (hpending.trans hs)).bind
        (fun _ u hu => ?_) (fun r u hu => ?_)
      · have hlength : prepared.length = s.buffer.length :=
          Fallible.length_of_mapM_eq_ok hprepared
        unfold discardBufferIndexes
        rw [ensures_modify, foldl_eraseIdx_sort]
        refine ⟨remaining_of_forall (fun i hi => ?_), hu.2.1, prepared, _, hprepared, hperm, ?_⟩
        · rw [hu.1, hbuffer] at hi
          exact Finset.mem_range.2 hi
        · exact hu.2.2.trans (congrArg (· ++ _) hcommitted)
      · exact ⟨hu.1.trans hbuffer, hu.2.1.trans hcommitted, hu.2.2⟩

/-- **A flush leaves in the buffer what it has not committed**, in order: however it ends, and
at whichever await point, chunk, batch or commit, the rows in the buffer are those of the
snapshot whose positions are not among the committed ones. -/
theorem buffer_eq_remaining_of_flush (rows : List (Row κ ν)) (script : List Reply) :
    Ensures (cfg.flush retry) { buffer := rows, script }
      (fun _ t => t.buffer = remaining t.committedIndexes rows) := by
  refine (ensures_flush cfg retry rfl).mono (fun r t ht => ?_)
  unfold FlushState.committedIndexes
  cases r with
  | error r =>
    rw [ht.1, ht.2.1]
    exact (remaining_empty rows).symm
  | ok _ =>
    obtain ⟨hbuffer, _, prepared, written, hprepared, hperm, hcommitted⟩ := ht
    rw [hbuffer, hcommitted]
    refine (remaining_of_forall (fun i hi => ?_)).symm
    rw [List.nil_append, List.mem_toFinset, (hperm.map Prod.snd).mem_iff, List.zipIdx_map_snd,
      ← List.range_eq_range', List.mem_range, Fallible.length_of_mapM_eq_ok hprepared]
    exact hi

end Flush

end FlushConfig

import AgoraPlugins.Kafka.Runtime
import AgoraPlugins.Machine
import AgoraPlugins.Postgres.AlignedUpsert
import AgoraPlugins.Postgres.FlushTransactions

/-!
# One record after another

A runtime delivers a record: it writes it to the sink, flushes the sink, and acknowledges the
record. If the database rejects its row, `deliver` raises, and the caller's policy decides
what becomes of the record. The next records are none of its concern, so the sink should have
nothing of it any more.

A row that the sink has not committed stays in its buffer. What takes a rejected row out again
is one line of the code that enqueues a row, and it is for a batch size of one and for errors
that are classified. Otherwise the row is there when the next record is delivered, and the
database rejects both. So it is in the runs in which no row stays behind that a record is
delivered whatever came before it (`isolated_of_handled`).
-/

open Effect Machine

/-- **The settings of a sink** without a poison sink, that makes rows of records of `U`. -/
structure SinkConfig (U κ ν : Type) extends FlushConfig κ ν where
  rowMapper : U → Except Exc (Row κ ν)
  batchSize : ℕ := 100
  /-- `batch_size must be >= 1` -/
  batchSize_pos : 1 ≤ batchSize

namespace SinkConfig

open FlushConfig
open PostgresSink (Raised)

variable {U κ ν : Type} [DecidableEq κ] (cfg : SinkConfig U κ ν) (retry : RetryAsync κ ν)

/-! ## Writing -/

/-- The target columns are loaded and the row is normalised to them, if rows are to be
aligned. -/
def alignRow (row : Row κ ν) : FlushM κ ν (Row κ ν) :=
  match cfg.policy with
  | .strict => pure row
  | .alignToTarget => do
    await
    FlushConfig.ofExcept .writeError (cfg.normalizeRow row)

/-- A one-row batch that is rejected for good is left to the caller. -/
def dropRejected (error : PostgresSinkWriteError) : FlushM κ ν PUnit :=
  if cfg.batchSize = 1 ∧ error.classification ≠ .unknown then
    modify (fun s => { s with buffer := [] })
  else pure ⟨⟩

/-- What a flush raises while a row is enqueued. -/
def handleFlushError : Raised → FlushM κ ν PUnit
  | .writeError error => do
    cfg.dropRejected error
    throw (.writeError error)
  | .other e => throw (.other e)

/-- `_enqueue_row`. -/
def enqueueRow (row : Row κ ν) : FlushM κ ν PUnit := do
  modify (fun s => { s with buffer := s.buffer ++ [row] })
  if cfg.batchSize ≤ (← get).buffer.length then
    tryCatch (cfg.flush retry) cfg.handleFlushError
  else pure ⟨⟩

/-- **`write`.** -/
def write (record : U) : FlushM κ ν PUnit := do
  let row ← FlushConfig.ofExcept .other (cfg.rowMapper record)
  let row ← cfg.alignRow row
  cfg.enqueueRow retry row

/-- **A sink as a runtime sees it.** -/
def sinkMethods : SinkMethods (FlushState κ ν) U where
  write record := EStateM.adaptExcept Raised.toExc (cfg.write retry record)
  flush := EStateM.adaptExcept Raised.toExc (cfg.flush retry)

end SinkConfig

/-! ## From a Redis stream -/

/-- **`RedisPostgresRuntime`**, on an open source. `decorate` puts the delivery's fields into
a record. -/
structure RedisPostgresRuntime (Id T U κ ν : Type) where
  sink : SinkConfig U κ ν
  transform : T → Except Exc U
  decorate : Id → U → U
  ackBatchSize : ℕ := 1
  /-- whether `_recover_from_connection_error` builds a new client for it -/
  recoverable : Exc → Bool := fun _ => false

namespace RedisPostgresRuntime

/-- **The sink, and a source that has handed out a record**: the id of the message, and the
ids that wait for an `XACK`. The script has the server's replies to it. -/
structure State (Id κ ν : Type) where
  sink : FlushState κ ν := {}
  active : Option Id := none
  pendingAckIds : List Id := []
  script : List Reply := []
  /-- the messages the hook has been called for -/
  acknowledged : List Id := []
  /-- the messages of the `XACK`s that have returned -/
  acked : List Id := []

variable {Id T U κ ν : Type}

/-- The computations of the runtime. -/
abbrev RedisM (Id κ ν β : Type) := EStateM Exc (State Id κ ν) β

/-- A computation of the sink. -/
def onSink {β : Type} (m : EStateM Exc (FlushState κ ν) β) : RedisM Id κ ν β :=
  zoom State.sink (fun s sink => { s with sink }) m

/-- One `XACK` of all the ids that wait; an exception puts them back. -/
def xack : RedisM Id κ ν PUnit := do
  let ids := (← get).pendingAckIds
  modify (fun s => { s with pendingAckIds := [] })
  tryCatch (zoom State.script (fun s script => { s with script }) nextReply) (fun e =>
    if e.isException then do
      modify (fun s => { s with pendingAckIds := ids ++ s.pendingAckIds })
      throw e
    else throw e)
  modify (fun s => { s with acked := s.acked ++ ids })

/-- The text of the error when no delivery is active. -/
def noActiveDelivery : String :=
  "RedisPostgresRuntime.deliver() requires an active Redis Stream delivery context "
    ++ "with ack_on_success=True. Consume from RedisStreamSource.stream() immediately "
    ++ "before calling deliver(), or use drain()."

variable [DecidableEq κ] (rt : RedisPostgresRuntime Id T U κ ν)

/-- `flush_pending_acks`. -/
def flushPendingAcks : RedisM Id κ ν PUnit := do
  if (← get).pendingAckIds.isEmpty then pure ⟨⟩
  else tryCatch xack (fun e => if e.isException && rt.recoverable e then xack else throw e)

/-- The hook that acknowledges a message. -/
def ackHook (id : Id) : RedisM Id κ ν PUnit := do
  modify (fun s => { s with
    pendingAckIds := s.pendingAckIds ++ [id], acknowledged := s.acknowledged ++ [id] })
  if rt.ackBatchSize ≤ (← get).pendingAckIds.length then rt.flushPendingAcks else pure ⟨⟩

/-- **`deliver`.** -/
def deliver (retry : FlushConfig.RetryAsync κ ν) (record : T) : RedisM Id κ ν U := do
  match (← get).active with
  | none => throw (.exception "RuntimeError" noActiveDelivery)
  | some id =>
    match rt.transform record with
    | .error e => throw e
    | .ok outbound => do
      let decorated := rt.decorate id outbound
      onSink ((rt.sink.sinkMethods retry).write decorated)
      onSink (rt.sink.sinkMethods retry).flush
      rt.ackHook id
      rt.flushPendingAcks
      pure decorated

end RedisPostgresRuntime

/-! ## A flush of one row -/

namespace FlushConfig

open PostgresSink (Raised)

variable {κ ν : Type} [DecidableEq κ] (cfg : FlushConfig κ ν)

/-- The columns of the batch that a row as it is written makes. -/
def columnsOf (row : Row κ ν) : List κ :=
  match cfg.policy with
  | .strict => row.keys
  | .alignToTarget => cfg.orderedColumns row

/-- **What it raises to write a row alone**: that its columns' names cannot be quoted, or that
the database rejects it. -/
def writeFailure (row : Row κ ν) : Option Raised :=
  match cfg.planError (cfg.columnsOf row) with
  | some e =>
    some (match cfg.insertMode with
      | .copyMerge => .other e
      | _ => cfg.wrapWriteError (.other e))
  | none => (cfg.rejects row).map (fun e => cfg.wrapWriteError (.other e))

variable {cfg} {s : FlushState κ ν} {row : Row κ ν} {columns : List κ}

omit [DecidableEq κ] in
/-- **Where nothing fails**, awaiting changes nothing. -/
theorem await_of_script (hs : s.script = []) : await s = .ok ⟨⟩ s := by
  obtain ⟨buffer, script, pending, committed⟩ := s
  cases hs
  rfl

/-- A row that is written has the columns of its batch. -/
theorem toFinset_columnsOf (h : cfg.prepareRow row = .ok row) :
    row.keys.toFinset = (cfg.columnsOf row).toFinset := by
  unfold prepareRow at h
  unfold columnsOf
  cases hpolicy : cfg.policy with
  | strict => rfl
  | alignToTarget =>
    rw [hpolicy] at h
    exact (WriteConfig.toFinset_orderedColumns (WriteConfig.normalizeRow_of_ok h).2).symm

/-- A row that was prepared is prepared as it is. -/
theorem prepareRow_of_ok {raw : Row κ ν} (h : cfg.prepareRow raw = .ok row) :
    cfg.prepareRow row = .ok row := by
  unfold prepareRow at h ⊢
  cases hpolicy : cfg.policy with
  | strict => rfl
  | alignToTarget =>
    rw [hpolicy] at h
    exact (WriteConfig.normalizeRow_of_ok h).1

omit [DecidableEq κ] in
theorem indexedChunks_single (row : Row κ ν × ℕ) (columns : List κ) :
    cfg.indexedChunks [row] columns = [[row]] := by
  have hpos := @WriteConfig.statementRowLimit_pos _ _ cfg.toWriteConfig columns.length
  unfold indexedChunks
  dsimp only
  generalize cfg.statementRowLimit columns.length = n at hpos
  have hcount : ([row].length + n - 1) / n = 1 := by
    rw [List.length_singleton, Nat.add_sub_cancel_left, Nat.div_self hpos]
  rw [hcount, List.range'_one, List.map_singleton, List.drop_zero, List.take_of_length_le hpos]

/-- **A batch of one row** is one statement, in whichever mode. -/
theorem executeBatch_single (hs : s.script = []) (hcolumns : row.keys.toFinset = columns.toFinset)
    (hplan : cfg.planError columns = none) :
    cfg.executeBatch ⟨columns, [(row, 0)]⟩ s = cfg.insertRows [(row, 0)] s := by
  have hquoted : cfg.plan columns s = .ok ⟨⟩ s := by
    unfold plan
    rw [hplan]
    rfl
  have hawait := await_of_script hs
  have hrow : [(row, 0)].forM (writeRow columns) s = .ok ⟨⟩ s := by
    have hmem : ∀ c ∈ columns, c ∈ row.keys := by
      intro c hc
      rw [← List.mem_toFinset, hcolumns, List.mem_toFinset]
      exact hc
    have hwrite : writeRow columns (row, 0) s = .ok ⟨⟩ s := by
      unfold writeRow
      rw [if_pos hmem, hawait]
    exact bind_of_ok hwrite _
  unfold executeBatch
  cases cfg.insertMode with
  | sql =>
    show cfg.executeSqlBatch [(row, 0)] columns s = _
    have hflatten : flattenRows columns [(row, 0)] s = .ok ⟨⟩ s := by
      unfold flattenRows
      rw [if_pos (by simpa using hcolumns)]
      rfl
    unfold executeSqlBatch
    rw [indexedChunks_single]
    show ((do
      cfg.plan columns
      flattenRows columns [(row, 0)]
      cfg.insertRows [(row, 0)]) >>= pure) s = _
    rw [bind_pure, bind_of_ok hquoted, bind_of_ok hflatten]
  | copy =>
    show cfg.executeCopyBatch [(row, 0)] columns s = _
    unfold executeCopyBatch
    rw [bind_of_ok hquoted, bind_of_ok hawait, bind_of_ok hrow]
  | copyMerge =>
    show cfg.executeCopyMergeBatch [(row, 0)] columns s = _
    unfold executeCopyMergeBatch
    rw [bind_of_ok hquoted, bind_of_ok hawait, bind_of_ok hawait, bind_of_ok hrow,
      bind_of_ok hawait]

variable (row) in
/-- Names that cannot be quoted. -/
theorem executeBatch_of_planError {e : Exc} (hplan : cfg.planError columns = some e) :
    cfg.executeBatch ⟨columns, [(row, 0)]⟩ s = .error (.other e) s := by
  have hquoted : cfg.plan columns s = .error (.other e) s := by
    unfold plan
    rw [hplan]
    rfl
  unfold executeBatch
  cases cfg.insertMode with
  | sql =>
    show cfg.executeSqlBatch [(row, 0)] columns s = _
    unfold executeSqlBatch
    rw [indexedChunks_single]
    exact bind_of_error (bind_of_error hquoted _) _
  | copy => exact bind_of_error hquoted _
  | copyMerge => exact bind_of_error hquoted _

omit [DecidableEq κ] in
/-- **A single row** is inserted or rejected. -/
theorem insertRows_single (hs : s.script = []) :
    cfg.insertRows [(row, 0)] s = match cfg.rejects row with
      | none => .ok ⟨⟩ { s with pending := s.pending ++ [(row, 0)] }
      | some e => .error (.other e) s := by
  unfold insertRows
  rw [bind_of_ok (await_of_script hs)]
  have hfind : [(row, 0)].findSome? (fun row : Row κ ν × ℕ => cfg.rejects row.1)
      = cfg.rejects row := by
    cases h : cfg.rejects row <;> simp [h]
  rw [hfind]
  cases cfg.rejects row with
  | none => rfl
  | some e => rfl

omit [DecidableEq κ] in
/-- Without an exception the handler does not run. -/
theorem onException_of_ok {β : Type} {m : FlushM κ ν β} {b : β} {t : FlushState κ ν}
    (h : m s = .ok b t) (handler : FlushM κ ν PUnit) : onException m handler s = .ok b t :=
  tryCatch_of_ok h _

omit [DecidableEq κ] in
/-- A handler that changes nothing. -/
theorem onException_of_error {β : Type} {m : FlushM κ ν β} {handler : FlushM κ ν PUnit}
    {r : Raised} (h : m s = .error r s) (hhandler : handler s = .ok ⟨⟩ s) :
    onException m handler s = .error r s := by
  unfold onException
  rw [tryCatch_of_error h]
  split
  · exact bind_of_ok hhandler _
  · rfl

omit [DecidableEq κ] in
theorem dropPending_of_pending (hpending : s.pending = []) : dropPending s = .ok ⟨⟩ s := by
  obtain ⟨buffer, script, pending, committed⟩ := s
  cases hpending
  rfl

/-- **A transaction whose only batch fails** changes nothing. -/
theorem transaction_of_error (hs : s.script = []) (hpending : s.pending = [])
    {batch : IndexedBatch κ ν} {r : Raised} (h : cfg.executeBatch batch s = .error r s) :
    cfg.transaction [batch] s = .error r s := by
  have hrollback : rollbackBestEffort s = .ok ⟨⟩ s := by
    unfold rollbackBestEffort
    refine tryCatch_of_ok ?_ _
    rw [bind_of_ok (await_of_script hs)]
    exact dropPending_of_pending hpending
  have hbody : ([batch].forM cfg.executeBatch >>= fun _ => commit) s = .error r s :=
    bind_of_error (bind_of_error h _) _
  unfold transaction onConnection
  rw [bind_of_ok (await_of_script hs)]
  exact onException_of_error (onException_of_error hbody hrollback)
    (dropPending_of_pending hpending)

/-- A transaction whose only batch is one row that is inserted. -/
theorem transaction_of_ok (hs : s.script = []) (hpending : s.pending = [])
    {batch : IndexedBatch κ ν}
    (h : cfg.executeBatch batch s = .ok ⟨⟩ { s with pending := s.pending ++ [(row, 0)] }) :
    cfg.transaction [batch] s
      = .ok ⟨⟩ { s with committed := s.committed ++ [(row, 0)] } := by
  have hcommit : commit { s with pending := s.pending ++ [(row, 0)] }
      = .ok ⟨⟩ { s with committed := s.committed ++ [(row, 0)] } := by
    unfold commit
    have hquiet : ({ s with pending := s.pending ++ [(row, 0)] } : FlushState κ ν).script = [] :=
      hs
    rw [bind_of_ok (await_of_script hquiet)]
    obtain ⟨buffer, script, pending, committed⟩ := s
    cases hpending
    rfl
  have hbody : ([batch].forM cfg.executeBatch >>= fun _ => commit) s
      = .ok ⟨⟩ { s with committed := s.committed ++ [(row, 0)] } := by
    have hforM : [batch].forM cfg.executeBatch s
        = .ok ⟨⟩ { s with pending := s.pending ++ [(row, 0)] } := bind_of_ok h _
    rw [bind_of_ok hforM, hcommit]
  unfold transaction onConnection
  rw [bind_of_ok (await_of_script hs)]
  exact onException_of_ok (onException_of_ok hbody _) _

/-- **A batch of one row** is committed, or raises what it raises to write it. -/
theorem flushVia_single {retry : RetryAsync κ ν} (hretry : retry.Uninterrupted)
    (hs : s.script = []) (hpending : s.pending = []) (hrow : cfg.prepareRow row = .ok row) :
    cfg.flushVia retry ⟨cfg.columnsOf row, [(row, 0)]⟩ s = match cfg.writeFailure row with
      | none => .ok ⟨⟩ { s with committed := s.committed ++ [(row, 0)] }
      | some r => .error r s := by
  -- what one attempt does is what the retry helper does
  have hwrite : ∀ {r}, cfg.transaction [⟨cfg.columnsOf row, [(row, 0)]⟩] s = .error r s →
      cfg.wrapping (cfg.writeBatches retry [⟨cfg.columnsOf row, [(row, 0)]⟩]) s
        = .error (cfg.wrapWriteError r) s := by
    intro r h
    unfold wrapping writeBatches
    cases cfg.insertMode with
    | copy => exact tryCatch_of_error h _
    | sql => exact tryCatch_of_error (hretry.run_of_error h) _
    | copyMerge => exact tryCatch_of_error (hretry.run_of_error h) _
  cases hplan : cfg.planError (cfg.columnsOf row) with
  | some e =>
    have hfailed := hwrite (transaction_of_error hs hpending
      (executeBatch_of_planError row hplan))
    unfold flushVia writeFailure
    rw [hplan]
    cases cfg.insertMode with
    | sql => exact hfailed
    | copy => exact hfailed
    | copyMerge =>
      refine bind_of_error ?_ _
      unfold plan
      rw [hplan]
      rfl
  | none =>
    have hquoted : cfg.plan (cfg.columnsOf row) s = .ok ⟨⟩ s := by
      unfold plan
      rw [hplan]
      rfl
    have hvia : cfg.flushVia retry ⟨cfg.columnsOf row, [(row, 0)]⟩ s
        = cfg.wrapping (cfg.writeBatches retry [⟨cfg.columnsOf row, [(row, 0)]⟩]) s := by
      unfold flushVia
      cases cfg.insertMode with
      | sql => rfl
      | copy => rfl
      | copyMerge => exact bind_of_ok hquoted _
    have hbatch := executeBatch_single hs (toFinset_columnsOf hrow) hplan
    rw [insertRows_single hs] at hbatch
    unfold writeFailure
    rw [hvia, hplan]
    cases hrejects : cfg.rejects row with
    | some e =>
      rw [hrejects] at hbatch
      exact hwrite (transaction_of_error hs hpending hbatch)
    | none =>
      rw [hrejects] at hbatch
      have hcommitted := transaction_of_ok hs hpending hbatch
      unfold wrapping writeBatches
      refine tryCatch_of_ok ?_ _
      cases cfg.insertMode with
      | copy => exact hcommitted
      | sql => exact retry.run_of_ok hcommitted
      | copyMerge => exact retry.run_of_ok hcommitted

theorem preparedBatches_single {raw : Row κ ν} (hs : s.script = [])
    (hrow : cfg.prepareRow raw = .ok row) :
    cfg.preparedBatches [raw] s = .ok [⟨cfg.columnsOf row, [(row, 0)]⟩] s := by
  unfold prepareRow at hrow
  unfold preparedBatches columnsOf
  cases hpolicy : cfg.policy with
  | strict =>
    rw [hpolicy] at hrow
    cases hrow
    rfl
  | alignToTarget =>
    rw [hpolicy] at hrow
    show (await >>= fun _ => ofExcept Raised.writeError (cfg.alignIndexedRows [raw])) s = _
    rw [bind_of_ok (await_of_script hs)]
    unfold alignIndexedRows
    have hmap : [raw].mapM cfg.normalizeRow = .ok [row] := by
      rw [Fallible.mapM_eq_ok_iff]
      exact .cons hrow .nil
    rw [hmap]
    rfl

omit [DecidableEq κ] in
/-- Nothing is taken out of the buffer. -/
theorem discardBufferIndexes_empty : discardBufferIndexes ∅ s = .ok ⟨⟩ s := by
  have hsame : (∅ : Finset ℕ).sort (fun i j => j ≤ i) = [] := Finset.sort_empty _
  unfold discardBufferIndexes
  rw [hsame]
  rfl

/-- **A flush of one row.** -/
theorem flush_single {retry : RetryAsync κ ν} (hretry : retry.Uninterrupted) {raw : Row κ ν}
    (hbuffer : s.buffer = [raw]) (hs : s.script = []) (hpending : s.pending = [])
    (hrow : cfg.prepareRow raw = .ok row) :
    cfg.flush retry s = match cfg.writeFailure row with
      | none => .ok ⟨⟩ { s with buffer := [], committed := s.committed ++ [(row, 0)] }
      | some r => .error r s := by
  have hvia := flushVia_single hretry hs hpending (prepareRow_of_ok hrow)
  have hprepared : cfg.wrapping (cfg.preparedBatches [raw]) s
      = .ok [⟨cfg.columnsOf row, [(row, 0)]⟩] s :=
    tryCatch_of_ok (preparedBatches_single hs hrow) _
  have hbatches : cfg.flushBatches retry [⟨cfg.columnsOf row, [(row, 0)]⟩]
      = cfg.flushEach retry ∅ [⟨cfg.columnsOf row, [(row, 0)]⟩] := by
    unfold flushBatches
    exact if_neg (fun h => absurd h.2 (lt_irrefl 1))
  have hflush : cfg.flush retry s = (cfg.flushEach retry ∅
      [⟨cfg.columnsOf row, [(row, 0)]⟩] >>= fun _ => discardBufferIndexes (Finset.range 1)) s := by
    unfold flush
    rw [bind_of_ok (rfl : (get : FlushM κ ν _) s = .ok s s), hbuffer]
    show (cfg.wrapping (cfg.preparedBatches [raw]) >>= _) s = _
    rw [bind_of_ok hprepared, hbatches]
    rfl
  rw [hflush]
  cases hfailure : cfg.writeFailure row with
  | some r =>
    rw [hfailure] at hvia
    exact bind_of_error (bind_of_error (onException_of_error hvia discardBufferIndexes_empty) _) _
  | none =>
    rw [hfailure] at hvia
    have heach : cfg.flushEach retry ∅ [⟨cfg.columnsOf row, [(row, 0)]⟩] s
        = .ok ⟨⟩ { s with committed := s.committed ++ [(row, 0)] } :=
      bind_of_ok (onException_of_ok hvia _) _
    rw [bind_of_ok heach]
    unfold discardBufferIndexes
    have hempty : remaining (Finset.range 1) s.buffer = [] := by
      refine remaining_of_forall (fun i hi => ?_)
      rw [hbuffer] at hi
      exact Finset.mem_range.2 hi
    rw [← hempty, ← foldl_eraseIdx_sort]
    rfl

end FlushConfig

/-! ## A record at a clean sink -/

namespace SinkConfig

open FlushConfig
open PostgresSink (Raised)

variable {U κ ν : Type} [DecidableEq κ] (cfg : SinkConfig U κ ν)

/-- The row that a record is written as. -/
def rowOf (record : U) : Except Raised (Row κ ν) :=
  match cfg.rowMapper record with
  | .error e => .error (.other e)
  | .ok row => (cfg.prepareRow row).mapError .writeError

/-- **Nothing is left behind** in the sink. -/
structure Clean (s : FlushState κ ν) : Prop where
  buffer : s.buffer = []
  pending : s.pending = []

/-- Whether a row goes out of the buffer with what writing it has raised. -/
def drops : Raised → Bool
  | .writeError error => cfg.batchSize = 1 && error.classification ≠ .unknown
  | .other _ => false

/-- **No row stays behind**: where the row of a record cannot be written alone, it goes out of
the buffer. -/
def Handles (record : U) : Prop :=
  ∀ row r, cfg.rowOf record = .ok row → cfg.writeFailure row = some r → cfg.drops r = true

/-- A write and a flush, or a write alone. -/
def writeAndFlush (retry : RetryAsync κ ν) (flush : Bool) (record : U) : FlushM κ ν PUnit := do
  cfg.write retry record
  if flush then cfg.flush retry else pure ⟨⟩

variable {cfg} {retry : RetryAsync κ ν} {s : FlushState κ ν} {record : U} {row : Row κ ν}

variable (cfg) in
theorem alignRow_eq (hs : s.script = []) (raw : Row κ ν) :
    cfg.alignRow raw s = match cfg.prepareRow raw with
      | .ok row => .ok row s
      | .error e => .error (.writeError e) s := by
  unfold alignRow prepareRow
  cases cfg.policy with
  | strict => rfl
  | alignToTarget =>
    show (await >>= fun _ => FlushConfig.ofExcept Raised.writeError (cfg.normalizeRow raw)) s = _
    rw [bind_of_ok (await_of_script hs)]
    cases cfg.normalizeRow raw with
    | ok row => rfl
    | error e => rfl

variable (retry) in
/-- A write is the enqueuing of the record's row, if it has one. -/
theorem write_of_ok (hs : s.script = []) (hrow : cfg.rowOf record = .ok row) :
    cfg.write retry record s = cfg.enqueueRow retry row s ∧ cfg.prepareRow row = .ok row := by
  unfold rowOf at hrow
  unfold write
  cases hmapper : cfg.rowMapper record with
  | error e =>
    rw [hmapper] at hrow
    cases hrow
  | ok raw =>
    rw [hmapper] at hrow
    dsimp only at hrow
    have halign := alignRow_eq cfg hs raw
    show (cfg.alignRow raw >>= _) s = _ ∧ _
    cases hprepare : cfg.prepareRow raw with
    | error e =>
      rw [hprepare] at hrow
      cases hrow
    | ok row' =>
      rw [hprepare] at hrow
      cases hrow
      rw [hprepare] at halign
      exact ⟨bind_of_ok halign _, prepareRow_of_ok hprepare⟩

/-- A record without a row is not written. -/
theorem write_of_error (hs : s.script = []) {r : Raised} (hrow : cfg.rowOf record = .error r) :
    cfg.write retry record s = .error r s := by
  unfold rowOf at hrow
  unfold write
  cases hmapper : cfg.rowMapper record with
  | error e =>
    rw [hmapper] at hrow
    cases hrow
    rfl
  | ok raw =>
    rw [hmapper] at hrow
    dsimp only at hrow
    have halign := alignRow_eq cfg hs raw
    show (cfg.alignRow raw >>= _) s = _
    cases hprepare : cfg.prepareRow raw with
    | ok row =>
      rw [hprepare] at hrow
      cases hrow
    | error e =>
      rw [hprepare] at hrow
      cases hrow
      rw [hprepare] at halign
      exact bind_of_error halign _

/-- **A row is enqueued at a clean sink.** -/
theorem enqueueRow_of_clean (hretry : retry.Uninterrupted) (hclean : Clean s)
    (hs : s.script = []) (hrow : cfg.prepareRow row = .ok row) :
    cfg.enqueueRow retry row s =
      if cfg.batchSize = 1 then match cfg.writeFailure row with
        | none => .ok ⟨⟩ { s with committed := s.committed ++ [(row, 0)] }
        | some r => .error r { s with buffer := if cfg.drops r then [] else [row] }
      else .ok ⟨⟩ { s with buffer := [row] } := by
  have happend : s.buffer ++ [row] = [row] := by rw [hclean.buffer, List.nil_append]
  have henqueue : cfg.enqueueRow retry row s = (if cfg.batchSize ≤ 1 then
      tryCatch (cfg.flush retry) cfg.handleFlushError else pure ⟨⟩)
        { s with buffer := [row] } := by
    unfold enqueueRow
    show (if cfg.batchSize ≤ (s.buffer ++ [row]).length then
        tryCatch (cfg.flush retry) cfg.handleFlushError
      else (pure ⟨⟩ : FlushM κ ν PUnit)) { s with buffer := s.buffer ++ [row] } = _
    rw [happend]
    rfl
  rw [henqueue]
  have hpos := cfg.batchSize_pos
  by_cases hone : cfg.batchSize = 1
  · rw [if_pos hone, if_pos hone.le]
    have hflush := flush_single (s := { s with buffer := [row] }) hretry rfl hs hclean.pending
      hrow
    cases hfailure : cfg.writeFailure row with
    | none =>
      rw [hfailure] at hflush
      rw [tryCatch_of_ok hflush, ← hclean.buffer]
    | some r =>
      rw [hfailure] at hflush
      rw [tryCatch_of_error hflush]
      cases r with
      | other e => rfl
      | writeError error =>
        show (cfg.dropRejected error >>= fun _ => throw (Raised.writeError error)) _ = _
        unfold dropRejected drops
        by_cases hclass : error.classification = .unknown
        · rw [if_neg (fun h => h.2 hclass)]
          simp only [hclass, ne_eq, not_true_eq_false, decide_false, Bool.and_false,
            Bool.false_eq_true, if_false]
          rfl
        · rw [if_pos ⟨hone, hclass⟩]
          simp only [hone, hclass, ne_eq, not_false_eq_true, decide_true, Bool.and_true, if_true]
          rfl
  · rw [if_neg hone, if_neg (by omega)]
    rfl

theorem flush_of_empty (hbuffer : s.buffer = []) : cfg.flush retry s = .ok ⟨⟩ s := by
  unfold FlushConfig.flush
  rw [bind_of_ok (rfl : (get : FlushM κ ν _) s = .ok s s), hbuffer]
  rfl

/-- **A record is written and flushed**, and the sink is clean again: the row is committed, or
what it raises to get it or to write it is raised. -/
theorem writeAndFlush_of_clean (hretry : retry.Uninterrupted) (hclean : Clean s)
    (hs : s.script = []) {flush : Bool} (hflush : flush = true ∨ cfg.batchSize = 1)
    (hhandles : cfg.Handles record) :
    cfg.writeAndFlush retry flush record s = match cfg.rowOf record with
      | .error r => .error r s
      | .ok row => match cfg.writeFailure row with
        | none => .ok ⟨⟩ { s with committed := s.committed ++ [(row, 0)] }
        | some r => .error r s := by
  unfold writeAndFlush
  cases hrow : cfg.rowOf record with
  | error r => exact bind_of_error (write_of_error hs hrow) _
  | ok row =>
    dsimp only
    obtain ⟨hwrite, hprepare⟩ := write_of_ok retry hs hrow
    rw [enqueueRow_of_clean hretry hclean hs hprepare] at hwrite
    by_cases hone : cfg.batchSize = 1
    · rw [if_pos hone] at hwrite
      cases hfailure : cfg.writeFailure row with
      | some r =>
        rw [hfailure] at hwrite
        refine bind_of_error (hwrite.trans ?_) _
        dsimp only
        rw [if_pos (hhandles row r hrow hfailure), ← hclean.buffer]
      | none =>
        rw [hfailure] at hwrite
        rw [bind_of_ok hwrite]
        cases flush with
        | false => rfl
        | true =>
          exact flush_of_empty
            (s := { s with committed := s.committed ++ [(row, 0)] }) hclean.buffer
    · rw [if_neg hone] at hwrite
      rw [bind_of_ok hwrite, if_pos (hflush.resolve_right hone),
        flush_single (s := { s with buffer := [row] }) hretry rfl hs hclean.pending hprepare]
      cases hfailure : cfg.writeFailure row with
      | some r =>
        have hdrops := hhandles row r hrow hfailure
        unfold drops at hdrops
        cases r with
        | other e => cases hdrops
        | writeError error => simp [hone] at hdrops
      | none =>
        dsimp only
        rw [← hclean.buffer]

end SinkConfig

/-! ## Runtimes -/

open FlushConfig SinkConfig

/-- **A call of `deliver`**: the delivery that the source has handed out, its record, and what
the database and the source's server will answer. -/
structure Call (Id T κ ν : Type) where
  id : Id
  record : T
  flush : Bool := true
  answers : List Reply := []
  replies : List Reply := []
  retry : RetryAsync κ ν

/-- The state that a result has. -/
def EStateM.Result.state {ε σ α : Type} : EStateM.Result ε σ α → σ
  | .ok _ s => s
  | .error _ s => s

/-- Whether a result is a value. -/
def EStateM.Result.returns {ε σ α : Type} : EStateM.Result ε σ α → Bool
  | .ok _ _ => true
  | .error _ _ => false

/-- **A runtime that delivers** records into a sink: first it makes of a record what the sink
takes, then it writes and flushes, and then it acknowledges the delivery. What raises ends it.
Acknowledging leaves the sink alone, and does not fail when the server answers. -/
structure Courier (S Id T U κ ν : Type) [DecidableEq κ] where
  cfg : SinkConfig U κ ν
  init : S
  sink : S → FlushState κ ν
  acknowledged : S → List Id
  outbound : Id → T → Except Exc U
  flushes : Call Id T κ ν → Bool
  deliver : Call Id T κ ν → S → EStateM.Result Exc S U
  sink_init : sink init = {}
  deliver_of_outbound : ∀ {call s e}, outbound call.id call.record = .error e →
    sink (deliver call s).state = { sink s with script := call.answers }
  deliver_of_error : ∀ {call s u r v}, outbound call.id call.record = .ok u →
    cfg.writeAndFlush call.retry (flushes call) u { sink s with script := call.answers }
      = .error r v → sink (deliver call s).state = v
  deliver_of_ok : ∀ {call s u v}, outbound call.id call.record = .ok u →
    cfg.writeAndFlush call.retry (flushes call) u { sink s with script := call.answers }
      = .ok ⟨⟩ v → sink (deliver call s).state = v ∧ (call.replies = [] →
        ∃ t, deliver call s = .ok u t ∧ acknowledged t = acknowledged s ++ [call.id])

namespace Courier

variable {S Id T U κ ν : Type} [DecidableEq κ] (c : Courier S Id T U κ ν)

/-- **One call.** -/
def step (s : S) (call : Call Id T κ ν) : Option S := some (c.deliver call s).state

/-- The sink meets no failure but what it raises to write a row. -/
structure Smooth (call : Call Id T κ ν) : Prop where
  answers : call.answers = []
  retry : call.retry.Uninterrupted
  flush : c.flushes call = true ∨ c.cfg.batchSize = 1

/-- **No row stays behind** when the record is delivered. -/
def Handled (call : Call Id T κ ν) : Prop :=
  c.Smooth call ∧ ∀ u, c.outbound call.id call.record = .ok u → c.cfg.Handles u

/-- **A record is delivered whatever came before it**: if its row can be written, and nothing
else fails, `deliver` returns, the row is committed and no other, and this delivery is
acknowledged and no other. -/
def Isolated (s : S) : Prop :=
  ∀ call u row, c.Smooth call → call.replies = [] → c.outbound call.id call.record = .ok u →
    c.cfg.rowOf u = .ok row → c.cfg.writeFailure row = none →
      ∃ t, c.deliver call s = .ok u t
        ∧ (c.sink t).committed = (c.sink s).committed ++ [(row, 0)]
        ∧ c.acknowledged t = c.acknowledged s ++ [call.id]

variable {c} {s : S} {call : Call Id T κ ν}

/-- A call that leaves no row behind leaves the sink clean. -/
theorem clean_deliver (hclean : Clean (c.sink s)) (hhandled : c.Handled call) :
    Clean (c.sink (c.deliver call s).state) := by
  obtain ⟨hsmooth, hhandles⟩ := hhandled
  have hquiet : Clean { c.sink s with script := call.answers } := ⟨hclean.buffer, hclean.pending⟩
  cases houtbound : c.outbound call.id call.record with
  | error e =>
    rw [c.deliver_of_outbound houtbound]
    exact hquiet
  | ok u =>
    have hwrite := writeAndFlush_of_clean hsmooth.retry hquiet hsmooth.answers hsmooth.flush
      (hhandles u houtbound)
    cases hrow : c.cfg.rowOf u with
    | error r =>
      rw [hrow] at hwrite
      rw [c.deliver_of_error houtbound hwrite]
      exact hquiet
    | ok row =>
      rw [hrow] at hwrite
      dsimp only at hwrite
      cases hfailure : c.cfg.writeFailure row with
      | some r =>
        rw [hfailure] at hwrite
        rw [c.deliver_of_error houtbound hwrite]
        exact hquiet
      | none =>
        rw [hfailure] at hwrite
        rw [(c.deliver_of_ok houtbound hwrite).1]
        exact ⟨hclean.buffer, hclean.pending⟩

/-- At a clean sink a record is delivered. -/
theorem isolated_of_clean (hclean : Clean (c.sink s)) : c.Isolated s := by
  intro call u row hsmooth hreplies houtbound hrow hfailure
  have hquiet : Clean { c.sink s with script := call.answers } := ⟨hclean.buffer, hclean.pending⟩
  have hhandles : c.cfg.Handles u := by
    intro row' r hrow' hfailure'
    rw [hrow] at hrow'
    cases hrow'
    rw [hfailure] at hfailure'
    cases hfailure'
  have hwrite := writeAndFlush_of_clean hsmooth.retry hquiet hsmooth.answers hsmooth.flush
    hhandles
  rw [hrow] at hwrite
  dsimp only at hwrite
  rw [hfailure] at hwrite
  obtain ⟨hsink, hreturns⟩ := c.deliver_of_ok houtbound hwrite
  obtain ⟨t, ht, hacknowledged⟩ := hreturns hreplies
  refine ⟨t, ht, ?_, hacknowledged⟩
  rw [ht] at hsink
  have hsame : c.sink t = _ := hsink
  rw [hsame]

/-- **In every run in which no row stays behind** a record is delivered at every point. -/
theorem allStates_isolated {calls : List (Call Id T κ ν)}
    (h : AllSteps c.step (fun _ call _ => c.Handled call) c.init calls) :
    AllStates c.step c.Isolated c.init calls := by
  have hinit : Clean (c.sink c.init) := by
    rw [c.sink_init]
    exact ⟨rfl, rfl⟩
  refine (allStates_of_step (I := fun s => Clean (c.sink s)) (fun s call t hs hhandled hstep => ?_)
    hinit h).mono (fun _ hs => isolated_of_clean hs)
  cases hstep
  exact clean_deliver hs hhandled

end Courier

/-! ## From Kafka -/

/-- **The settings of a Kafka runtime** with a PostgreSQL sink. -/
structure KafkaToPostgres (T U κ ν : Type) where
  source : SourceConfig := {}
  groupId : String
  transform : T → Except Exc U
  decorate : U → Except Exc U
  sink : SinkConfig U κ ν

namespace KafkaToPostgres

variable {T U κ ν : Type} [DecidableEq κ] (cfg : KafkaToPostgres T U κ ν)

/-- The runtime. -/
def runtime (retry : RetryAsync κ ν) : KafkaSourceRuntime (FlushState κ ν) T U where
  source := cfg.source
  groupId := cfg.groupId
  sink := cfg.sink.sinkMethods retry
  transform := cfg.transform
  decorate := cfg.decorate

/-- **A runtime between two calls**, and the deliveries that calls have acknowledged. -/
structure Session (κ ν : Type) where
  delivering : Delivering (FlushState κ ν) := { sink := {} }
  acknowledged : List (TopicPartition × ℤ) := []

/-- A record is handed out. -/
def Session.handOut (s : Session κ ν) (call : Call (TopicPartition × ℤ) T κ ν) :
    Delivering (FlushState κ ν) :=
  { s.delivering with
    sink := { s.delivering.sink with script := call.answers }
    active := some call.id
    acknowledged := false
    script := call.replies
    cursor := s.delivering.cursor.rememberProcessedOffset call.id.1 call.id.2 }

/-- What a call leaves. -/
def Session.left (s : Session κ ν) (id : TopicPartition × ℤ)
    (t : Delivering (FlushState κ ν)) : Session κ ν :=
  ⟨t, s.acknowledged ++ if t.acknowledged then [id] else []⟩

/-- A call of `deliver`. -/
def deliver (call : Call (TopicPartition × ℤ) T κ ν) (s : Session κ ν) :
    EStateM.Result Exc (Session κ ν) U :=
  match (cfg.runtime call.retry).deliver call.flush false call.record (s.handOut call) with
  | .ok u t => .ok u (s.left call.id t)
  | .error e t => .error e (s.left call.id t)

/-- What the sink is given is written and flushed. -/
theorem writeAndSettle (retry : RetryAsync κ ν) (flush : Bool) (u : U)
    (s : Delivering (FlushState κ ν)) :
    (KafkaSourceRuntime.onSink ((cfg.runtime retry).sink.write u) >>= fun _ =>
      (cfg.runtime retry).settleSink flush) s
      = match cfg.sink.writeAndFlush retry flush u s.sink with
        | .ok _ v => .ok ⟨⟩ { s with sink := v }
        | .error r v => .error r.toExc { s with sink := v } := by
  unfold writeAndFlush
  cases hwrite : cfg.sink.write retry u s.sink with
  | error r v =>
    rw [bind_of_error hwrite]
    exact bind_of_error (zoom_of_error (adaptExcept_of_error hwrite _) _) _
  | ok _ v =>
    have hwritten : KafkaSourceRuntime.onSink ((cfg.runtime retry).sink.write u) s
        = .ok ⟨⟩ { s with sink := v } := zoom_of_ok (adaptExcept_of_ok hwrite _) _
    rw [bind_of_ok hwrite, bind_of_ok hwritten]
    cases flush with
    | false => rfl
    | true =>
      show KafkaSourceRuntime.onSink (cfg.runtime retry).sink.flush _ = match
        cfg.sink.flush retry v with
        | .ok _ v => _
        | .error r v => _
      cases hflush : cfg.sink.flush retry v with
      | ok _ w => exact zoom_of_ok (adaptExcept_of_ok hflush _) _
      | error r w => exact zoom_of_error (adaptExcept_of_error hflush _) _

variable {cfg} {call : Call (TopicPartition × ℤ) T κ ν} {s : Session κ ν} {u : U}

/-- After the sink, the delivery is acknowledged. -/
theorem runtime_deliver_of_ok (houtbound : (cfg.transform call.record >>= cfg.decorate) = .ok u) :
    (cfg.runtime call.retry).deliver call.flush false call.record (s.handOut call)
      = ((KafkaSourceRuntime.onSink ((cfg.runtime call.retry).sink.write u) >>= fun _ =>
          (cfg.runtime call.retry).settleSink call.flush) >>= fun _ => do
        (cfg.runtime call.retry).ack call.id
        pure u) (s.handOut call) := by
  unfold KafkaSourceRuntime.deliver
  have hsame : (cfg.runtime call.retry).outbound call.record = .ok u := houtbound
  rw [hsame, bind_assoc]
  rfl

/-- **A delivery whose write raises** acknowledges nothing. -/
theorem deliver_of_sink_error
    (houtbound : (cfg.transform call.record >>= cfg.decorate) = .ok u) {r : PostgresSink.Raised}
    {v : FlushState κ ν} (hwrite : cfg.sink.writeAndFlush call.retry call.flush u
      { s.delivering.sink with script := call.answers } = .error r v) :
    cfg.deliver call s = .error r.toExc (s.left call.id { s.handOut call with sink := v }) := by
  have hsettle := cfg.writeAndSettle call.retry call.flush u (s.handOut call)
  rw [show cfg.sink.writeAndFlush call.retry call.flush u (s.handOut call).sink = _ from hwrite]
    at hsettle
  unfold deliver
  rw [runtime_deliver_of_ok houtbound, bind_of_error hsettle]

/-- **One whose write returns** is acknowledged. -/
theorem deliver_of_sink_ok
    (houtbound : (cfg.transform call.record >>= cfg.decorate) = .ok u)
    {v : FlushState κ ν} (hwrite : cfg.sink.writeAndFlush call.retry call.flush u
      { s.delivering.sink with script := call.answers } = .ok ⟨⟩ v) :
    (cfg.deliver call s).state.delivering.sink = v ∧ (call.replies = [] →
      ∃ t, cfg.deliver call s = .ok u t ∧ t.acknowledged = s.acknowledged ++ [call.id]) := by
  have hsettle := cfg.writeAndSettle call.retry call.flush u (s.handOut call)
  rw [show cfg.sink.writeAndFlush call.retry call.flush u (s.handOut call).sink = _ from hwrite]
    at hsettle
  have hack := (cfg.runtime call.retry).ensures_ack call.id { s.handOut call with sink := v }
  unfold deliver
  rw [runtime_deliver_of_ok houtbound, bind_of_ok hsettle]
  cases hresult : (cfg.runtime call.retry).ack call.id { s.handOut call with sink := v } with
  | ok _ t =>
    obtain ⟨hsink, hacknowledged, -⟩ := hack.of_ok hresult
    rw [bind_of_ok hresult]
    refine ⟨hsink, fun _ => ⟨_, rfl, ?_⟩⟩
    show s.acknowledged ++ (if t.acknowledged then _ else _) = _
    rw [hacknowledged]
    rfl
  | error e t =>
    obtain ⟨hsink, -, hreturns⟩ := hack.of_error hresult
    rw [bind_of_error hresult]
    exact ⟨hsink, fun hreplies => nomatch hreturns hreplies⟩

variable (cfg)

/-- **The runtime delivers.** -/
def courier : Courier (Session κ ν) (TopicPartition × ℤ) T U κ ν where
  cfg := cfg.sink
  init := {}
  sink s := s.delivering.sink
  acknowledged := Session.acknowledged
  outbound _ record := cfg.transform record >>= cfg.decorate
  flushes := Call.flush
  deliver := cfg.deliver
  sink_init := rfl
  deliver_of_outbound := by
    intro call s e houtbound
    have hsame : (cfg.runtime call.retry).outbound call.record = .error e := houtbound
    unfold deliver KafkaSourceRuntime.deliver
    rw [hsame]
    rfl
  deliver_of_error := by
    intro call s u r v houtbound hwrite
    rw [deliver_of_sink_error houtbound hwrite]
    rfl
  deliver_of_ok := by
    intro call s u v houtbound hwrite
    exact deliver_of_sink_ok houtbound hwrite

end KafkaToPostgres

/-! ## From Redis -/

namespace RedisPostgresRuntime

variable {Id T U κ ν : Type} [DecidableEq κ] (rt : RedisPostgresRuntime Id T U κ ν)

/-- A record is handed out. -/
def State.handOut (s : State Id κ ν) (call : Call Id T κ ν) : State Id κ ν :=
  { s with
    sink := { s.sink with script := call.answers }
    active := some call.id
    script := call.replies }

/-- **What acknowledging leaves**: the sink as it is, and of the ids those of the hook. -/
structure Acks (s t : State Id κ ν) : Prop where
  sink : t.sink = s.sink
  acknowledged : t.acknowledged = s.acknowledged
  acked : ∀ id ∈ t.acked, id ∈ s.acked ∨ id ∈ s.pendingAckIds
  pendingAckIds : ∀ id ∈ t.pendingAckIds, id ∈ s.pendingAckIds

omit [DecidableEq κ] in
/-- **`XACK`** acknowledges what has been queued for it, or raises. -/
theorem ensures_xack (s : State Id κ ν) :
    Ensures xack s (fun r t => Acks s t ∧ (s.script = [] → r = .ok ⟨⟩ ∧ t.script = [])) := by
  have hreturned : ∀ script, Acks s { s with
      pendingAckIds := [], script := script, acked := s.acked ++ s.pendingAckIds } :=
    fun _ => ⟨rfl, rfl, fun id hid => List.mem_append.1 hid, nofun⟩
  unfold xack
  rw [ensures_bind, ensures_get]
  dsimp only
  rw [ensures_bind, ensures_modify]
  dsimp only
  rw [ensures_bind, ensures_tryCatch, ensures_zoom]
  cases hs : s.script with
  | nil => exact ⟨hreturned [], fun _ => ⟨rfl, rfl⟩⟩
  | cons reply script =>
    refine ensures_nextReply (fun rest => ⟨hreturned rest, nofun⟩) (fun e rest => ?_)
    show Ensures (if e.isException = true then _ else _) _ _
    split
    · refine ⟨⟨rfl, rfl, fun _ => .inl, fun id hid => ?_⟩, nofun⟩
      exact (List.mem_append.1 hid).elim (fun h => h) (fun h => absurd h List.not_mem_nil)
    · exact ⟨⟨rfl, rfl, fun _ => .inl, nofun⟩, nofun⟩

omit [DecidableEq κ] in
theorem Acks.trans {s t u : State Id κ ν} (h : Acks s t) (h' : Acks t u) : Acks s u where
  sink := h'.sink.trans h.sink
  acknowledged := h'.acknowledged.trans h.acknowledged
  acked id hid := (h'.acked id hid).elim (h.acked id) (fun hid => .inr (h.pendingAckIds id hid))
  pendingAckIds id hid := h.pendingAckIds id (h'.pendingAckIds id hid)

omit [DecidableEq κ] in
/-- The acknowledgements that are queued are sent. -/
theorem ensures_flushPendingAcks (s : State Id κ ν) :
    Ensures rt.flushPendingAcks s
      (fun r t => Acks s t ∧ (s.script = [] → r = .ok ⟨⟩ ∧ t.script = [])) := by
  unfold flushPendingAcks
  rw [ensures_bind, ensures_get]
  show Ensures (if s.pendingAckIds.isEmpty then _ else _) s _
  split
  · exact ⟨⟨rfl, rfl, fun _ => .inl, fun _ h => h⟩, fun hs => ⟨rfl, hs⟩⟩
  · rw [ensures_tryCatch]
    refine (ensures_xack s).mono (fun r t ht => ?_)
    cases r with
    | ok _ => exact ht
    | error e =>
      have hnot : s.script ≠ [] := fun hs => nomatch (ht.2 hs).1
      show Ensures (if (e.isException && rt.recoverable e) = true then _ else _) t _
      split
      · exact (ensures_xack t).mono (fun _ u hu => ⟨ht.1.trans hu.1, fun hs => absurd hs hnot⟩)
      · exact ⟨ht.1, fun hs => absurd hs hnot⟩

/-- The state once the hook has put an id on the list. -/
def State.enqueue (s : State Id κ ν) (id : Id) : State Id κ ν :=
  { s with pendingAckIds := s.pendingAckIds ++ [id], acknowledged := s.acknowledged ++ [id] }

omit [DecidableEq κ] in
/-- **The hook** queues one more, and may send them. -/
theorem ensures_ackHook (id : Id) (s : State Id κ ν) :
    Ensures (rt.ackHook id) s (fun r t => Acks (s.enqueue id) t
      ∧ (s.script = [] → r = .ok ⟨⟩ ∧ t.script = [])) := by
  unfold ackHook
  rw [ensures_bind, ensures_modify, ensures_bind, ensures_get]
  show Ensures (if rt.ackBatchSize ≤ (s.pendingAckIds ++ [id]).length then _ else _)
    (s.enqueue id) _
  split
  · exact rt.ensures_flushPendingAcks (s.enqueue id)
  · exact ⟨⟨rfl, rfl, fun _ => .inl, fun _ h => h⟩, fun hs => ⟨rfl, hs⟩⟩

omit [DecidableEq κ] in
/-- **A message is acknowledged**: by the hook, and by what it leaves for the next `XACK`. -/
theorem ensures_acknowledge (id : Id) (s : State Id κ ν) :
    Ensures (rt.ackHook id >>= fun _ => rt.flushPendingAcks) s (fun r t =>
      Acks (s.enqueue id) t ∧ (s.script = [] → r = .ok ⟨⟩)) := by
  refine (rt.ensures_ackHook id s).bind (fun _ t ht => ?_) (fun e t ht => ?_)
  · refine (rt.ensures_flushPendingAcks t).mono (fun r u hu => ⟨ht.1.trans hu.1, fun hs => ?_⟩)
    exact (hu.2 (ht.2 hs).2).1
  · exact ⟨ht.1, fun hs => (ht.2 hs).1⟩

/-- What the sink is given is written and flushed. -/
theorem onSink_writeAndFlush (retry : RetryAsync κ ν) (u : U) (s : State Id κ ν) :
    (onSink ((rt.sink.sinkMethods retry).write u) >>= fun _ =>
      onSink (rt.sink.sinkMethods retry).flush) s
      = match rt.sink.writeAndFlush retry true u s.sink with
        | .ok _ v => .ok ⟨⟩ { s with sink := v }
        | .error r v => .error r.toExc { s with sink := v } := by
  unfold writeAndFlush
  cases hwrite : rt.sink.write retry u s.sink with
  | error r v =>
    rw [bind_of_error hwrite]
    exact bind_of_error (zoom_of_error (adaptExcept_of_error hwrite _) _) _
  | ok _ v =>
    have hwritten : onSink ((rt.sink.sinkMethods retry).write u) s
        = .ok ⟨⟩ { s with sink := v } := zoom_of_ok (adaptExcept_of_ok hwrite _) _
    rw [bind_of_ok hwrite, bind_of_ok hwritten, if_pos rfl]
    cases hflush : rt.sink.flush retry v with
    | ok _ w => exact zoom_of_ok (adaptExcept_of_ok hflush _) _
    | error r w => exact zoom_of_error (adaptExcept_of_error hflush _) _

variable {rt} {call : Call Id T κ ν} {s : State Id κ ν} {u : U}

/-- After the sink, the message is acknowledged. -/
theorem deliver_of_outbound_ok (houtbound : (rt.transform call.record).map (rt.decorate call.id)
    = .ok u) :
    rt.deliver call.retry call.record (s.handOut call)
      = ((onSink ((rt.sink.sinkMethods call.retry).write u) >>= fun _ =>
          onSink (rt.sink.sinkMethods call.retry).flush) >>= fun _ =>
        (rt.ackHook call.id >>= fun _ => rt.flushPendingAcks) >>= fun _ => pure u)
          (s.handOut call) := by
  cases htransform : rt.transform call.record with
  | error e =>
    rw [htransform] at houtbound
    cases houtbound
  | ok outbound =>
    rw [htransform] at houtbound
    cases houtbound
    unfold deliver
    rw [bind_of_ok (rfl : (get : RedisM Id κ ν _) (s.handOut call) = .ok _ _), bind_assoc,
      bind_assoc, htransform]
    rfl

/-- A record that cannot be transformed is not delivered. -/
theorem deliver_of_outbound_error {e : Exc}
    (houtbound : (rt.transform call.record).map (rt.decorate call.id) = .error e) :
    rt.deliver call.retry call.record (s.handOut call) = .error e (s.handOut call) := by
  cases htransform : rt.transform call.record with
  | error e =>
    rw [htransform] at houtbound
    cases houtbound
    unfold deliver
    rw [bind_of_ok (rfl : (get : RedisM Id κ ν _) (s.handOut call) = .ok _ _), htransform]
    rfl
  | ok outbound =>
    rw [htransform] at houtbound
    cases houtbound

variable (rt)

/-- **The runtime delivers.** -/
def courier : Courier (State Id κ ν) Id T U κ ν where
  cfg := rt.sink
  init := {}
  sink := State.sink
  acknowledged := State.acknowledged
  outbound id record := (rt.transform record).map (rt.decorate id)
  flushes _ := true
  deliver call s := rt.deliver call.retry call.record (s.handOut call)
  sink_init := rfl
  deliver_of_outbound := by
    intro call s e houtbound
    rw [deliver_of_outbound_error houtbound]
    rfl
  deliver_of_error := by
    intro call s u r v houtbound hwrite
    have hsink := rt.onSink_writeAndFlush call.retry u (s.handOut call)
    rw [show rt.sink.writeAndFlush call.retry true u (s.handOut call).sink = _ from hwrite]
      at hsink
    rw [deliver_of_outbound_ok houtbound, bind_of_error hsink]
    rfl
  deliver_of_ok := by
    intro call s u v houtbound hwrite
    have hsink := rt.onSink_writeAndFlush call.retry u (s.handOut call)
    rw [show rt.sink.writeAndFlush call.retry true u (s.handOut call).sink = _ from hwrite]
      at hsink
    rw [deliver_of_outbound_ok houtbound, bind_of_ok hsink]
    have hack := rt.ensures_acknowledge call.id { s.handOut call with sink := v }
    cases hresult : (rt.ackHook call.id >>= fun _ => rt.flushPendingAcks)
        { s.handOut call with sink := v } with
    | ok _ t =>
      obtain ⟨hacks, -⟩ := hack.of_ok hresult
      rw [bind_of_ok hresult]
      exact ⟨hacks.sink, fun _ => ⟨_, rfl, hacks.acknowledged⟩⟩
    | error e t =>
      obtain ⟨hacks, hreturns⟩ := hack.of_error hresult
      rw [bind_of_error hresult]
      exact ⟨hacks.sink, fun hreplies => nomatch hreturns hreplies⟩

/-- What an `XACK` has acknowledged, or will, the hook has been called for. -/
def AcksHandled (s : State Id κ ν) : Prop :=
  ∀ id, id ∈ s.acked ∨ id ∈ s.pendingAckIds → id ∈ s.acknowledged

variable {rt}

omit [DecidableEq κ] in
/-- Only what was handled is acknowledged. -/
theorem AcksHandled.of_acks {t : State Id κ ν} (h : AcksHandled s) (hacks : Acks s t) :
    AcksHandled t := by
  rintro id (hid | hid)
  · rw [hacks.acknowledged]
    exact h id (hacks.acked id hid)
  · rw [hacks.acknowledged]
    exact h id (.inr (hacks.pendingAckIds id hid))

omit [DecidableEq κ] in
theorem AcksHandled.enqueue (h : AcksHandled s) (id : Id) : AcksHandled (s.enqueue id) := by
  rintro id' (hid | hid)
  · exact List.mem_append_left _ (h id' (.inl hid))
  · rcases List.mem_append.1 hid with hid | hid
    · exact List.mem_append_left _ (h id' (.inr hid))
    · exact List.mem_append_right _ hid

/-- **No message is acknowledged for another**, whatever the calls meet. -/
theorem allStates_acksHandled (calls : List (Call Id T κ ν)) :
    AllStates rt.courier.step AcksHandled {} calls := by
  refine allStates_of_invariant (fun s call t hs hstep => ?_) ?_ calls
  · cases hstep
    show AcksHandled (rt.deliver call.retry call.record (s.handOut call)).state
    have hsame : ∀ v : FlushState κ ν, AcksHandled { s.handOut call with sink := v } := fun _ => hs
    cases houtbound : (rt.transform call.record).map (rt.decorate call.id) with
    | error e =>
      rw [deliver_of_outbound_error houtbound]
      exact hs
    | ok u =>
      have hsink := rt.onSink_writeAndFlush call.retry u (s.handOut call)
      rw [deliver_of_outbound_ok houtbound]
      cases hwrite : rt.sink.writeAndFlush call.retry true u (s.handOut call).sink with
      | error r v =>
        rw [hwrite] at hsink
        rw [bind_of_error hsink]
        exact hsame v
      | ok _ v =>
        rw [hwrite] at hsink
        rw [bind_of_ok hsink]
        have hack := rt.ensures_acknowledge call.id { s.handOut call with sink := v }
        cases hresult : (rt.ackHook call.id >>= fun _ => rt.flushPendingAcks)
            { s.handOut call with sink := v } with
        | ok _ t =>
          rw [bind_of_ok hresult]
          exact ((hsame v).enqueue call.id).of_acks (hack.of_ok hresult).1
        | error e t =>
          rw [bind_of_error hresult]
          exact ((hsame v).enqueue call.id).of_acks (hack.of_error hresult).1
  · rintro id (hid | hid) <;> cases hid

end RedisPostgresRuntime

/-! ## The law -/

/-- **A record is delivered whatever came before it**, from Kafka and from Redis, in every run
in which no row stays behind: every record's row can be written, or the batch size is one and
what the database raises for it is classified, and nothing else fails in the sink. Then a
record whose row can be written is delivered at every point of the run: its row is committed
and no other, and it is acknowledged and no other. -/
theorem isolated_of_handled {Id T U κ ν : Type} [DecidableEq κ] :
    (∀ (cfg : KafkaToPostgres T U κ ν) (calls : List (Call (TopicPartition × ℤ) T κ ν)),
      AllSteps cfg.courier.step (fun _ call _ => cfg.courier.Handled call) {} calls →
        AllStates cfg.courier.step cfg.courier.Isolated {} calls)
    ∧ ∀ (rt : RedisPostgresRuntime Id T U κ ν) (calls : List (Call Id T κ ν)),
      AllSteps rt.courier.step (fun _ call _ => rt.courier.Handled call) {} calls →
        AllStates rt.courier.step
          (fun s => rt.courier.Isolated s ∧ RedisPostgresRuntime.AcksHandled s) {} calls := by
  refine ⟨fun cfg calls h => Courier.allStates_isolated h, fun rt calls h => ?_⟩
  exact (Courier.allStates_isolated h).and (RedisPostgresRuntime.allStates_acksHandled calls)

/-! ## A row that stays behind -/

/-- The retry helper that does not retry. -/
def once : RetryAsync String ℕ := ⟨id, fun _ s => .last s⟩

theorem uninterrupted_once : once.Uninterrupted :=
  fun _ s => ⟨s, .refl, rfl⟩

/-- A sink of measurements in a table that takes no zero. -/
def measurements (batchSize : ℕ) (batchSize_pos : 1 ≤ batchSize) : SinkConfig ℕ String ℕ where
  conflictKeys := ["value"]
  rejects row := if row.lookup "value" = some (some 0) then
    some (.exception "CheckViolation" "value") else none
  sqlstate _ := some "23514"
  rowMapper n := .ok (AList.singleton "value" (some n))
  batchSize
  batchSize_pos

/-- A runtime that puts a topic into it. -/
def fromTopic (batchSize : ℕ) (batchSize_pos : 1 ≤ batchSize) :
    KafkaToPostgres ℕ ℕ String ℕ where
  groupId := "measurements"
  transform := .ok
  decorate := .ok
  sink := measurements batchSize batchSize_pos

/-- Delivering a measurement from an offset. -/
def delivering (offset : ℤ) (n : ℕ) : Call (TopicPartition × ℤ) ℕ String ℕ where
  id := (⟨"measurements", 0⟩, offset)
  record := n
  retry := once

/-- A record that is delivered without one is handled. -/
theorem handled_delivering (offset : ℤ) (n : ℕ) :
    (fromTopic 1 le_rfl).courier.Handled (delivering offset n) := by
  refine ⟨⟨rfl, uninterrupted_once, .inl rfl⟩, fun u hu row r hrow hfailure => ?_⟩
  cases hu
  cases hrow
  obtain ⟨e, he, rfl⟩ := Option.map_eq_some_iff.1 hfailure
  change (if _ then some _ else none) = some e at he
  split at he
  · cases he
    rfl
  · cases he

/-- Two records are delivered one after the other. -/
theorem isolated_of_handled_fromTopic :
    AllStates (fromTopic 1 le_rfl).courier.step (fromTopic 1 le_rfl).courier.Isolated {}
      [delivering 0 0, delivering 1 7] := by
  refine (@isolated_of_handled ℕ ℕ ℕ String ℕ _).1 (fromTopic 1 le_rfl) _ ?_
  exact fun _ _ => ⟨handled_delivering 0 0, fun _ _ => ⟨handled_delivering 1 7, trivial⟩⟩

/-- **With the default batch size** the rejected row is still in the buffer when the next
record is delivered. -/
theorem not_isolated_rejected :
    ¬ ∀ (calls : List (Call (TopicPartition × ℤ) ℕ String ℕ))
        (s : KafkaToPostgres.Session String ℕ) (call : Call (TopicPartition × ℤ) ℕ String ℕ)
        (row : Row String ℕ) (e : Exc),
      run (fromTopic 100 (by decide)).courier.step {} calls = some s →
      (measurements 100 (by decide)).rowOf call.record = .ok row →
      (measurements 100 (by decide)).rejects row = some e →
      ((fromTopic 100 (by decide)).courier.deliver call s).returns = false →
      (fromTopic 100 (by decide)).courier.Isolated
        ((fromTopic 100 (by decide)).courier.deliver call s).state := by
  intro h
  have hrejected : ((fromTopic 100 (by decide)).courier.deliver (delivering 0 0) {}).returns
      = false := by
    decide +kernel
  have hisolated := h [] {} (delivering 0 0) (AList.singleton "value" (some 0))
    (.exception "CheckViolation" "value") rfl rfl rfl hrejected
  obtain ⟨t, ht, -⟩ := hisolated (delivering 1 7) 7 (AList.singleton "value" (some 7))
    ⟨rfl, uninterrupted_once, .inl rfl⟩ rfl rfl rfl rfl
  have hraises : ((fromTopic 100 (by decide)).courier.deliver (delivering 1 7)
      ((fromTopic 100 (by decide)).courier.deliver (delivering 0 0) {}).state).returns = false := by
    decide +kernel
  rw [ht] at hraises
  cases hraises

import AgoraPlugins.Reply

/-!
# The PostgreSQL sink

`PostgresSink` maps a record to a row and puts it in a buffer. When there are
`batch_size` rows in it, and on `flush` and `close`, the buffer is written to
the table in one transaction and its rows leave the buffer. A write that fails
is raised as a `PostgresSinkWriteError` with a classification; if there is a
poison sink, the rows then go to the DLQ instead.

This is the sink with one caller, its methods computations that keep their
state when they raise. What the database and the DLQ do is the script: a
transaction commits or it raises something. Which rows the table has been given
and which the DLQ is recorded, in order.
-/

open Effect

/-- `PoisonRecordClassification`. -/
inductive PoisonClassification where
  | schemaDrift
  | constraintViolation
  | typeMismatch
  | unknown
  deriving DecidableEq

/-- **A `PostgresSinkWriteError`**, with its poison information. -/
structure PostgresSinkWriteError where
  message : String
  classification : PoisonClassification
  reason : String
  deriving DecidableEq

/-- `PostgresWriteSafetyPolicy`. -/
inductive PostgresWriteSafetyPolicy where
  | strict
  | alignToTarget
  deriving DecidableEq

/-- The three ways of writing. -/
inductive InsertMode where
  | sql
  | copy
  | copyMerge
  deriving DecidableEq

namespace PostgresSink

/-- What a method of the sink raises. -/
inductive Raised where
  | writeError (error : PostgresSinkWriteError)
  | other (e : Exc)
  deriving DecidableEq

/-- Whether `except Exception` catches it. -/
def Raised.isException : Raised → Bool
  | .writeError _ => true
  | .other e => e.isException

/-- What was raised, as the sink's caller sees it. -/
def Raised.toExc : Raised → Exc
  | .writeError error => .exception "PostgresSinkWriteError" error.message
  | .other e => e

/-- What an await point answers. -/
inductive Answer where
  | ok
  | raises (r : Raised)
  deriving DecidableEq

/-- **The state of a sink**: its buffer, the rest of the script, and the rows
committed to the table and routed to the DLQ. -/
structure State (ρ : Type) where
  buffer : List ρ := []
  script : List Answer := []
  committed : List ρ := []
  routed : List ρ := []
  deriving DecidableEq

/-- The computations of a sink. -/
abbrev SinkM (ρ β : Type) := EStateM Raised (State ρ) β

/-- The default batch size is accepted. -/
theorem one_le_batchSize : 1 ≤ 100 := by decide

/-- **The settings of a sink** that makes rows of `ρ` from records of `T`.
`normalizeRow` is what alignment to the target table makes of a row. -/
structure Config (T ρ : Type) where
  rowMapper : T → Except Exc ρ
  batchSize : ℕ := 100
  insertMode : InsertMode := .sql
  policy : PostgresWriteSafetyPolicy := .strict
  poisonSink : Bool := false
  normalizeRow : ρ → Except PostgresSinkWriteError ρ := Except.ok
  /-- the `sqlstate` of a database error -/
  sqlstate : Exc → Option String := fun _ => none
  /-- `batch_size must be >= 1` -/
  batchSize_pos : 1 ≤ batchSize := by exact one_le_batchSize

/-- The retry helper, on computations of this sink. -/
abbrev RetryAsync (ρ : Type) :=
  Effect.Retry (State ρ) (fun r : Raised => r.isException = true) (.other .cancelled)

variable {T ρ β : Type}

/-! ## Errors -/

/-- The classification of a database error and its reason, by its
`sqlstate`. -/
def classification (sqlstate : Option String) (typeName : String) :
    PoisonClassification × String :=
  match sqlstate with
  | some "42P01" => (.schemaDrift, "undefined_table")
  | some "42703" => (.schemaDrift, "undefined_column")
  | some "23502" => (.constraintViolation, "not_null_violation")
  | some "23505" => (.constraintViolation, "unique_violation")
  | some "23503" => (.constraintViolation, "foreign_key_violation")
  | some "23514" => (.constraintViolation, "check_violation")
  | some "22P02" => (.typeMismatch, "invalid_text_representation")
  | some "42804" => (.typeMismatch, "datatype_mismatch")
  | _ => (.unknown, typeName)

/-- **`wrap_write_error`.** An error that has its poison information stays as it
is. -/
def wrapWriteError (cfg : Config T ρ) : Raised → Raised
  | .writeError error => .writeError error
  | .other .cancelled => .other .cancelled
  | .other (.exception typeName message) =>
    let (classification, reason) :=
      classification (cfg.sqlstate (.exception typeName message)) typeName
    .writeError ⟨"Postgres sink write failed: " ++ message, classification, reason⟩

/-- An await point: it takes the next answer of the script. -/
def await : SinkM ρ PUnit := do
  match (← get).script with
  | [] => pure ⟨⟩
  | .ok :: script => modify (fun s => { s with script })
  | .raises r :: script => do
    modify (fun s => { s with script })
    throw r

/-- **The await rule.** -/
theorem ensures_await {s : State ρ} {Q : Except Raised PUnit → State ρ → Prop}
    (hok : ∀ script, Q (.ok ⟨⟩) { s with script := script })
    (herror : ∀ r script, Q (.error r) { s with script := script }) :
    Ensures await s Q := by
  unfold await
  rw [ensures_bind, ensures_get]
  show Ensures (match s.script with
    | [] => pure ⟨⟩
    | .ok :: script => modify (fun s => { s with script })
    | .raises r :: script => do
      modify (fun s => { s with script })
      throw r) s Q
  match hs : s.script with
  | [] =>
    have hsame : s = { s with script := [] } := by rw [← hs]
    rw [ensures_pure, hsame]
    exact hok []
  | .ok :: script => exact hok script
  | .raises r :: script => exact herror r script

/-- A value, or what getting it raised. -/
def ofExcept {ε : Type} (raised : ε → Raised) : Except ε β → SinkM ρ β
  | .ok b => pure b
  | .error e => throw (raised e)

/-! ## Flushing -/

variable (cfg : Config T ρ) (retry : RetryAsync ρ)

/-- Exceptions are wrapped on their way out. -/
def wrapping (m : SinkM ρ PUnit) : SinkM ρ PUnit :=
  tryCatch m (fun r => throw (wrapWriteError cfg r))

/-- The target columns are loaded, and a row is normalised to them, if rows are
to be aligned. -/
def alignRow (row : ρ) : SinkM ρ ρ :=
  match cfg.policy with
  | .strict => pure row
  | .alignToTarget => do
    await
    ofExcept .writeError (cfg.normalizeRow row)

/-- `prepared_write_batches`: all rows are normalised again before anything is
written. -/
def prepare (rows : List ρ) : SinkM ρ PUnit :=
  match cfg.policy with
  | .strict => pure ⟨⟩
  | .alignToTarget => do
    await
    rows.forM (fun row => do
      let _ ← ofExcept .writeError (cfg.normalizeRow row)
      pure ⟨⟩)

/-- **One attempt to write**: a transaction that commits all the rows or, when
it raises, none. What is awaited after the commit, to release the connection,
may raise too. -/
def attempt (rows : List ρ) : SinkM ρ PUnit := do
  await
  modify (fun s => { s with committed := s.committed ++ rows })
  await

/-- Only COPY is not attempted again. -/
def writeRows (rows : List ρ) : SinkM ρ PUnit :=
  match cfg.insertMode with
  | .copy => attempt rows
  | _ => retry.run (attempt rows)

/-- Takes as many rows from the front of the buffer. -/
def clearBufferPrefix (count : ℕ) : SinkM ρ PUnit :=
  modify (fun s => { s with buffer := s.buffer.drop count })

/-- **`flush`.** -/
def flush : SinkM ρ PUnit := do
  let rows := (← get).buffer
  if rows.isEmpty then pure ⟨⟩
  else do
    wrapping cfg (prepare cfg rows)
    wrapping cfg (writeRows cfg retry rows)
    clearBufferPrefix rows.length

/-! ## Writing -/

/-- The rows in the buffer go to the DLQ, if there is one. -/
def routeFailedBufferToDLQ : SinkM ρ PUnit := do
  let failedRows := (← get).buffer
  if cfg.poisonSink && !failedRows.isEmpty then do
    await
    modify (fun s => { s with routed := s.routed ++ failedRows })
    clearBufferPrefix failedRows.length
  else pure ⟨⟩

/-- A one-row batch that is rejected for good is left to the caller. -/
def dropRejected (error : PostgresSinkWriteError) : SinkM ρ PUnit :=
  if !cfg.poisonSink && cfg.batchSize = 1 && error.classification ≠ .unknown then
    modify (fun s => { s with buffer := [] })
  else pure ⟨⟩

/-- What a flush raises while a row is enqueued. -/
def handleFlushError : Raised → SinkM ρ PUnit
  | .writeError error => do
    routeFailedBufferToDLQ cfg
    dropRejected cfg error
    throw (.writeError error)
  | .other e => throw (.other e)

def enqueueRow (row : ρ) : SinkM ρ PUnit := do
  modify (fun s => { s with buffer := s.buffer ++ [row] })
  if cfg.batchSize ≤ (← get).buffer.length then
    tryCatch (flush cfg retry) (handleFlushError cfg)
  else pure ⟨⟩

/-- **`write`.** -/
def write (record : T) : SinkM ρ PUnit := do
  let row ← ofExcept .other (cfg.rowMapper record)
  let row ← alignRow cfg row
  enqueueRow cfg retry row

/-! ## Closing -/

/-- What a flush raises while the sink is closed: the rows go to the DLQ, or
the error is raised when the connections are closed. -/
def handleCloseError : Raised → SinkM ρ (Option Raised)
  | .writeError error =>
    if cfg.poisonSink then
      tryCatch
        (do
          routeFailedBufferToDLQ cfg
          pure none)
        (fun r => if r.isException then pure (some r) else throw r)
    else pure (some (.writeError error))
  | .other e => if e.isException then pure (some (.other e)) else throw (.other e)

/-- **`close`.** -/
def close : SinkM ρ PUnit := do
  let flushError ← tryCatch
    (do
      flush cfg retry
      pure none)
    (handleCloseError cfg)
  await -- the connections
  match flushError with
  | none => pure ⟨⟩
  | some r => throw r

end PostgresSink

import AgoraPlugins.Postgres.DeliverIsolation
import AgoraPlugins.RepeatedOps

/-!
# From Redis to PostgreSQL, once

A `RedisPostgresRuntime` writes and flushes the row of a message before it acknowledges the message.
Where it fails in between, the message stays with its consumer and is delivered again, and its row
is written again.

What makes this come out right is the key. The runtime puts the identity of the message into the
record, the row mapper is wrapped so that the row has it too, and the conflict columns contain it:
two rows of one message meet in the table, and those of two messages never do. So whatever fails – a
statement, a commit, the connection, an `XACK`, a call that is cancelled at some await point, the
process – and however often and in whatever order the messages come, the table is the one that some
set of messages makes, each of them upserted once, and whatever is acknowledged is among them
(`once_of_built`).

A commit that is not answered may have been done. Then there are rows in the table of which the sink
does not know.

What this needs is a row mapper that leaves the key alone, and conflict columns that are not null: a
row with a NULL in one of them conflicts with nothing, and is there as often as it is written. It is
about `sql` mode. In `copy_merge` mode a row that waits in the buffer decides which columns the next
one may have, and a column that only the next one has is lost.
-/

open Effect Machine Upsert

/-! ## The profile -/

/-- `RedisPostgresDeliveryConfig`. -/
structure RedisPostgresDeliveryConfig where
  keyField : String := "redis_delivery_key"
  metadataField : Option String := none

/-- `RedisStreamDeliveryContext`. -/
structure RedisStreamDeliveryContext where
  stream : String
  group : String
  consumer : String
  messageId : String

namespace RedisStreamDeliveryContext

/-- `delivery_id`. -/
def deliveryId (context : RedisStreamDeliveryContext) : String :=
  context.stream ++ ":" ++ context.messageId

/-- `to_dict`. -/
def toDict (context : RedisStreamDeliveryContext) : List (String × String) :=
  [("stream", context.stream), ("group", context.group), ("consumer", context.consumer),
    ("message_id", context.messageId), ("delivery_id", context.deliveryId)]

end RedisStreamDeliveryContext

/-- **The values of records and rows**: texts and dicts of them are among them. -/
structure CellValues (ν : Type) where
  text : String → ν
  dict : List (String × String) → ν
  text_injective : Function.Injective text

/-- A field of a record is put into its row, unless it is null or the row has it. -/
def preserveField {ν : Type} (field : String) (record row : Row String ν) : Row String ν :=
  match record.lookup field with
  | some (some v) => if field ∈ row then row else row.insert field (some v)
  | _ => row

/-- **`with_redis_delivery_fields`.** -/
def withRedisDeliveryFields {ν : Type} (rowMapper : Row String ν → Except Exc (Row String ν))
    (delivery : RedisPostgresDeliveryConfig) (record : Row String ν) :
    Except Exc (Row String ν) := do
  let row ← rowMapper record
  let row := preserveField delivery.keyField record row
  pure (match delivery.metadataField with
    | none => row
    | some metadataField => preserveField metadataField record row)

/-- **The source and the arguments of `build_redis_postgres_runtime`**, with what the database makes
of its statements. A text is a list of one column, and an empty one is no key. -/
structure RedisPostgresProfile (T ν : Type) where
  stream : String
  group : String
  consumer : String
  ackBatchSize : ℕ := 100
  recoverable : Exc → Bool := fun _ => false
  transform : T → Except Exc (Row String ν)
  rowMapper : Row String ν → Except Exc (Row String ν) := .ok
  conflictKey : List String := []
  batchSize : ℕ := 100
  upsert : Bool := true
  insertMode : InsertMode := .sql
  maxRowsPerStatement : Option ℕ := none
  maxParametersPerStatement : ℕ := 32000
  flushEachRecord : Bool := true
  delivery : RedisPostgresDeliveryConfig := {}
  planError : List String → Option Exc := fun _ => none
  rejects : Row String ν → Option Exc := fun _ => none
  sqlstate : Exc → Option String := fun _ => none
  default : String → Option ν := fun _ => none
  /-- `batch_size must be >= 1` -/
  batchSize_pos : 1 ≤ batchSize

namespace RedisPostgresProfile

variable {T ν : Type} (values : CellValues ν) (profile : RedisPostgresProfile T ν)

/-- **The delivery of a message**: what identifies it. -/
def context (messageId : String) : RedisStreamDeliveryContext :=
  ⟨profile.stream, profile.group, profile.consumer, messageId⟩

/-- What `deliver` puts into a record. -/
def decorate (messageId : String) (outbound : Row String ν) : Row String ν :=
  let context := profile.context messageId
  let decorated := outbound.insert profile.delivery.keyField (some (values.text context.deliveryId))
  match profile.delivery.metadataField with
  | none => decorated
  | some metadataField => decorated.insert metadataField (some (values.dict context.toDict))

/-- `conflict_key or key_field`. -/
def conflictKeys : List String :=
  if profile.conflictKey = [] then [profile.delivery.keyField] else profile.conflictKey

/-- **`build_redis_postgres_runtime`.** -/
def build : Except Exc (RedisPostgresRuntime String T (Row String ν) String ν) :=
  if profile.upsert = false then
    throw (.exception "ValueError" "Redis Streams -> PostgreSQL requires upsert=True")
  else if profile.delivery.keyField ∉ profile.conflictKeys then
    throw (.exception "ValueError"
      "Redis Streams -> PostgreSQL conflict_key must include the configured delivery key")
  else if profile.insertMode = .copy then
    throw (.exception "ValueError" "insert_mode='copy' is only supported when upsert=False")
  else if profile.flushEachRecord = false then
    throw (.exception "ValueError"
      ("RedisPostgresRuntime requires flush_each_record=True so XACK cannot precede "
        ++ "a durable PostgreSQL write."))
  else pure {
    sink := {
      conflictKeys := profile.conflictKeys
      upsert := profile.upsert
      maxRowsPerStatement := profile.maxRowsPerStatement
      maxParametersPerStatement := profile.maxParametersPerStatement
      default := profile.default
      insertMode := profile.insertMode
      planError := profile.planError
      rejects := profile.rejects
      sqlstate := profile.sqlstate
      rowMapper := withRedisDeliveryFields profile.rowMapper profile.delivery
      batchSize := profile.batchSize
      batchSize_pos := profile.batchSize_pos }
    transform := profile.transform
    decorate := profile.decorate values
    ackBatchSize := profile.ackBatchSize
    recoverable := profile.recoverable }

end RedisPostgresProfile

/-! ## Runs -/

namespace RedisPostgresRuntime

open FlushConfig SinkConfig
open PostgresSink (Raised)

/-- **A runtime between two calls**, and the messages that its source has handed out. -/
structure Session (ν : Type) where
  runtime : State String String ν := {}
  seen : List String := []

/-- What happens. -/
inductive Event (ν : Type) where
  /-- the source hands out a message, and it is delivered -/
  | delivered (id : String) (answers replies : List Reply) (retry : RetryAsync String ν)
  /-- the sink is flushed -/
  | flushed (answers : List Reply) (retry : RetryAsync String ν)
  /-- a commit of rows of these messages has been done, and the sink was not told -/
  | landed (ids : List String)
  /-- the process is started anew -/
  | restarted

variable {T ν : Type} (rt : RedisPostgresRuntime String T (Row String ν) String ν)
  (entry : String → T)

/-- The row of a message. -/
def rowOf (id : String) : Option (Row String ν) :=
  match (rt.transform (entry id)).map (rt.decorate id) with
  | .error _ => none
  | .ok outbound => (rt.sink.rowMapper outbound).toOption

/-- **The delivery of a message**, as a call. -/
def callOf (id : String) (answers replies : List Reply) (retry : RetryAsync String ν) :
    Call String T String ν where
  id := id
  record := entry id
  answers := answers
  replies := replies
  retry := retry

/-- **One event.** A message is the same whenever it comes. -/
def step (s : Session ν) : Event ν → Option (Session ν)
  | .delivered id answers replies retry =>
    let call := callOf entry id answers replies retry
    some {
      runtime := (rt.deliver call.retry call.record (s.runtime.handOut call)).state
      seen := s.seen ++ [id] }
  | .flushed answers retry => some { s with
      runtime := { s.runtime with
        sink := finalState (rt.sink.flush retry) { s.runtime.sink with script := answers } } }
  | .landed ids =>
    if ∀ id ∈ ids, id ∈ s.seen then some { s with
      runtime := { s.runtime with
        sink := { s.runtime.sink with
          committed := s.runtime.sink.committed
            ++ (ids.filterMap (rt.rowOf entry)).map (fun row => (row, 0)) } } }
    else none
  | .restarted => some { s with
      runtime := {
        sink := { committed := s.runtime.sink.committed }
        acknowledged := s.runtime.acknowledged
        acked := s.runtime.acked } }

variable [DecidableEq ν]

/-- What is proposed for a row. -/
def proposal (row : Row String ν) : Proposal String ν :=
  rt.sink.rowProposal row.keys.toFinset row

/-- **The table**, from what it was at first: the committed rows are upserted in their order. -/
def Session.table (s : Session ν) (t : Table String ν) : Table String ν :=
  upserts rt.sink.conflictKeys t (s.runtime.sink.committed.map (fun x => rt.proposal x.1))

/-- **Every message once**: the table is the one that some messages make, each upserted once. All
for which the hook was called or an `XACK` has returned are among them, and none that was not handed
out. -/
def Session.Once (t : Table String ν) (s : Session ν) : Prop :=
  ∃ ids : List String, ids.Nodup ∧ (∀ id ∈ ids, id ∈ s.seen)
    ∧ (∀ id, id ∈ s.runtime.acknowledged ∨ id ∈ s.runtime.acked → id ∈ ids)
    ∧ s.table rt t = upserts rt.sink.conflictKeys t
      (ids.filterMap (fun id => (rt.rowOf entry id).map rt.proposal))

end RedisPostgresRuntime


/-! ## The rows of a sink -/

namespace FlushConfig

open PostgresSink (Raised)

variable {κ ν β : Type} {P : Row κ ν → Prop} {s t : FlushState κ ν}

/-- All the rows that a sink has, and those it has committed, have a property. -/
def Holds (P : Row κ ν → Prop) (s : FlushState κ ν) : Prop :=
  (∀ row ∈ s.buffer, P row) ∧ (∀ x ∈ s.pending, P x.1) ∧ ∀ x ∈ s.committed, P x.1

/-- **What becomes of the rows**: those there are have the property still, and what is committed
stays so. -/
structure Moves (P : Row κ ν → Prop) (s t : FlushState κ ν) : Prop where
  holds : Holds P s → Holds P t
  committed : ∀ x ∈ s.committed, x ∈ t.committed

instance : IsPreorder (FlushState κ ν) (Moves P) where
  refl _ := ⟨id, fun _ h => h⟩
  trans _ _ _ h h' := ⟨h'.holds ∘ h.holds, fun x hx => h'.committed x (h.committed x hx)⟩

theorem Holds.mono {Q : Row κ ν → Prop} (h : Holds P s) (hpq : ∀ row, P row → Q row) :
    Holds Q s :=
  ⟨fun row hrow => hpq row (h.1 row hrow), fun x hx => hpq x.1 (h.2.1 x hx),
    fun x hx => hpq x.1 (h.2.2 x hx)⟩

theorem moves_of_eq (hbuffer : t.buffer = s.buffer) (hpending : t.pending = s.pending)
    (hcommitted : t.committed = s.committed) : Moves P s t := by
  refine ⟨fun h => ?_, fun x hx => ?_⟩
  · unfold Holds
    rw [hbuffer, hpending, hcommitted]
    exact h
  · rw [hcommitted]
    exact hx

theorem moves_await : Respects (Moves P) (await : FlushM κ ν PUnit) :=
  fun _ => ensures_await (fun _ => moves_of_eq rfl rfl rfl) (fun _ _ => moves_of_eq rfl rfl rfl)

theorem moves_onException {m : FlushM κ ν β} {handler : FlushM κ ν PUnit}
    (hm : Respects (Moves P) m) (hhandler : Respects (Moves P) handler) :
    Respects (Moves P) (onException m handler) := by
  unfold onException
  refine hm.tryCatch (fun r => ?_)
  split
  · exact hhandler.bind (fun _ => respects_throw r)
  · exact respects_throw r

/-- What was inserted and not committed is gone. -/
theorem moves_dropPending : Respects (Moves P) (dropPending : FlushM κ ν PUnit) :=
  respects_modify (fun _ => ⟨fun h => ⟨h.1, nofun, h.2.2⟩, fun _ hx => hx⟩)

/-- **A commit** stores what was inserted. -/
theorem moves_commit : Respects (Moves P) (commit : FlushM κ ν PUnit) := by
  refine moves_await.bind (fun _ => respects_modify (fun s => ?_))
  refine ⟨fun h => ⟨h.1, nofun, fun x hx => ?_⟩, fun x hx => List.mem_append_left _ hx⟩
  rcases List.mem_append.1 hx with hx | hx
  · exact h.2.2 x hx
  · exact h.2.1 x hx

theorem moves_rollbackBestEffort :
    Respects (Moves P) (rollbackBestEffort : FlushM κ ν PUnit) := by
  refine Respects.tryCatch (moves_await.bind (fun _ => moves_dropPending)) (fun r => ?_)
  split
  · exact respects_pure _
  · exact respects_throw r

theorem moves_discardBufferIndexes (indexes : Finset ℕ) :
    Respects (Moves P) (discardBufferIndexes indexes : FlushM κ ν PUnit) := by
  refine respects_modify (fun s => ⟨fun h => ⟨fun row hrow => ?_, h.2⟩, fun _ hx => hx⟩)
  have hrow : row ∈ (indexes.sort (fun i j => j ≤ i)).foldl List.eraseIdx s.buffer := hrow
  rw [foldl_eraseIdx_sort] at hrow
  obtain ⟨x, hx, rfl⟩ := List.mem_map.1 hrow
  exact h.1 x.1 (List.fst_mem_of_mem_zipIdx (List.mem_of_mem_filter hx))

variable [DecidableEq κ] {cfg : FlushConfig κ ν} {rows : List (Row κ ν × ℕ)}

omit [DecidableEq κ] in
/-- **Rows are inserted** that are all right. -/
theorem moves_insertRows (h : ∀ x ∈ rows, P x.1) : Respects (Moves P) (cfg.insertRows rows) := by
  refine moves_await.bind (fun _ => ?_)
  cases rows.findSome? (fun row => cfg.rejects row.1) with
  | some e => exact respects_throw _
  | none =>
    refine respects_modify (fun s => ⟨fun hs => ⟨hs.1, fun x hx => ?_, hs.2.2⟩, fun _ hx => hx⟩)
    rcases List.mem_append.1 hx with hx | hx
    · exact hs.2.1 x hx
    · exact h x hx

/-- **One `INSERT` a chunk.** -/
theorem moves_executeSqlBatch (h : ∀ x ∈ rows, P x.1) (columns : List κ) :
    Respects (Moves P) (cfg.executeSqlBatch rows columns) := by
  refine respects_forM_of_mem (fun chunk hchunk => ?_)
  have hchunk : ∀ x ∈ chunk, P x.1 := by
    intro x hx
    refine h x ?_
    rw [← @flatten_indexedChunks κ ν cfg rows columns]
    exact List.mem_flatten_of_mem hchunk hx
  have hplan : Respects (Moves P) (cfg.plan columns) := by
    unfold plan
    cases cfg.planError columns with
    | none => exact respects_pure _
    | some e => exact respects_throw _
  have hflatten : Respects (Moves P) (flattenRows columns chunk) := by
    unfold flattenRows
    split
    · exact respects_pure _
    · exact respects_throw _
  exact hplan.bind (fun _ => hflatten.bind (fun _ => moves_insertRows hchunk))

omit [DecidableEq κ] in
/-- An error is wrapped, and no row moves. -/
theorem moves_wrapping {m : FlushM κ ν β} (hm : Respects (Moves P) m) :
    Respects (Moves P) (cfg.wrapping m) :=
  hm.tryCatch (fun _ => respects_throw _)

/-- **The rows are committed** if the computation returns. -/
def Stores (rows : List (Row κ ν × ℕ)) (m : FlushM κ ν β) : Prop :=
  ∀ s, Ensures m s (fun r t => ∀ b, r = .ok b → ∀ x ∈ rows, x ∈ t.committed)

omit [DecidableEq κ] in
/-- A handler runs only if the rows are not stored. -/
theorem stores_onException {m : FlushM κ ν β} (hm : Stores rows m) (handler : FlushM κ ν PUnit) :
    Stores rows (onException m handler) := by
  intro s
  refine ensures_onException (hm s) (fun _ _ h => h) (fun r t _ _ => ?_) (fun _ _ _ _ => nofun)
  unfold Ensures
  cases handler t with
  | ok _ u => exact nofun
  | error _ u => exact nofun

section Sql

variable (hmode : cfg.insertMode = .sql)

include hmode

/-- **One attempt**, in `sql` mode. -/
theorem moves_transaction (batch : IndexedBatch κ ν) (h : ∀ x ∈ batch.rows, P x.1) :
    Respects (Moves P) (cfg.transaction [batch]) := by
  have hbatch : Respects (Moves P) ([batch].forM cfg.executeBatch) := by
    refine respects_forM_of_mem (fun b hb => ?_)
    rw [List.mem_singleton.1 hb]
    unfold executeBatch
    rw [hmode]
    exact moves_executeSqlBatch h _
  unfold transaction onConnection
  exact moves_await.bind (fun _ => moves_onException
    (moves_onException (hbatch.bind (fun _ => moves_commit)) moves_rollbackBestEffort)
    moves_dropPending)

omit hmode in
/-- **A transaction that returns** has stored its rows. -/
theorem stores_transaction (batch : IndexedBatch κ ν) :
    Stores batch.rows (cfg.transaction [batch]) := by
  have hbody : Stores batch.rows (do
      [batch].forM cfg.executeBatch
      commit : FlushM κ ν PUnit) := by
    intro s
    refine (executes_forM (g := IndexedBatch.rows) (fun batch _ => executes_batch batch) s).bind
      (fun _ t ht => ?_) (fun _ _ _ => nofun)
    obtain ⟨_, _, hpending⟩ := ht
    unfold commit
    rw [ensures_bind]
    refine ensures_await (fun script => fun _ _ x hx => ?_) (fun _ _ => nofun)
    show x ∈ t.committed ++ t.pending
    rw [hpending ⟨⟩ rfl, List.flatMap_singleton]
    exact List.mem_append_right _ (List.mem_append_right _ hx)
  intro s
  unfold transaction onConnection
  rw [ensures_bind]
  exact ensures_await
    (fun _ => stores_onException (stores_onException hbody rollbackBestEffort) dropPending _)
    (fun _ _ => nofun)

variable (retry : RetryAsync κ ν)

/-- A flush moves the rows of its batch. -/
theorem moves_flushVia (batch : IndexedBatch κ ν) (h : ∀ x ∈ batch.rows, P x.1) :
    Respects (Moves P) (cfg.flushVia retry batch) := by
  unfold flushVia writeBatches
  rw [hmode]
  exact moves_wrapping (Attempts.respects (moves_transaction hmode batch h) (retry.attempts _))

theorem stores_flushVia (batch : IndexedBatch κ ν) :
    Stores batch.rows (cfg.flushVia retry batch) := by
  have hretried : Stores batch.rows (retry.run (cfg.transaction [batch])) := by
    intro s
    refine Attempts.ensures (I := fun _ => True) (fun t _ => ?_) (retry.attempts _) trivial
    refine (stores_transaction batch t).mono (fun r u hu => ⟨hu, fun e he _ => ⟨trivial, nofun⟩⟩)
  intro s
  unfold flushVia writeBatches wrapping
  rw [hmode]
  dsimp only
  rw [ensures_tryCatch]
  refine (hretried s).mono (fun r t ht => ?_)
  cases r with
  | ok b => exact ht
  | error r => exact nofun

end Sql

end FlushConfig

/-! ## A sink in strict mode -/

namespace SinkConfig

open FlushConfig
open PostgresSink (Raised)

variable {U κ ν : Type} [DecidableEq κ] {cfg : SinkConfig U κ ν} {P : Row κ ν → Prop}
  {s : FlushState κ ν} (retry : RetryAsync κ ν)

/-- **A flush in strict mode** is of one batch, with the columns of the first row. -/
theorem flush_of_strict (hpolicy : cfg.policy = .strict) {row : Row κ ν} {rows : List (Row κ ν)}
    (hbuffer : s.buffer = row :: rows) :
    cfg.flush retry s
      = (onException (cfg.flushVia retry ⟨row.keys, (row :: rows).zipIdx⟩) (discardBufferIndexes ∅)
          >>= fun _ => discardBufferIndexes (Finset.range (row :: rows).length)) s := by
  have hprepared : cfg.wrapping (cfg.preparedBatches (row :: rows)) s
      = .ok [⟨row.keys, (row :: rows).zipIdx⟩] s := by
    refine tryCatch_of_ok ?_ _
    unfold preparedBatches
    dsimp only
    rw [hpolicy]
    rfl
  have hstrict : ∀ batches : List (IndexedBatch κ ν),
      ¬ (cfg.policy = .alignToTarget ∧ 1 < batches.length) := by
    rintro batches ⟨halign, _⟩
    rw [hpolicy] at halign
    cases halign
  unfold flush
  rw [bind_of_ok (rfl : (get : FlushM κ ν _) s = .ok s s), hbuffer]
  show (cfg.wrapping (cfg.preparedBatches (row :: rows)) >>= _) s = _
  rw [bind_of_ok hprepared]
  unfold flushBatches
  rw [if_neg (hstrict _)]
  show ((onException (cfg.flushVia retry ⟨row.keys, (row :: rows).zipIdx⟩)
    (discardBufferIndexes ∅) >>= pure) >>= fun _ => discardBufferIndexes _) s = _
  rw [bind_pure]

/-- The row that a record is written as, if it is mapped to one. -/
theorem write_of_strict (hpolicy : cfg.policy = .strict) (record : U) :
    cfg.write retry record = match cfg.rowMapper record with
      | .ok row => cfg.enqueueRow retry row
      | .error e => throw (.other e) := by
  unfold write alignRow
  rw [hpolicy]
  cases cfg.rowMapper record with
  | ok row => rfl
  | error e => rfl

section Sql

variable (hmode : cfg.insertMode = .sql) (hpolicy : cfg.policy = .strict)

include hmode hpolicy

/-- **A flush in strict mode.** -/
theorem moves_flush : Respects (Moves P) (cfg.flush retry) := by
  have hflush : ∀ (P : Row κ ν → Prop) (s : FlushState κ ν), (∀ row ∈ s.buffer, P row) →
      Ensures (cfg.flush retry) s (fun _ t => Moves P s t) := by
    intro P s hs
    cases hbuffer : s.buffer with
    | nil =>
      rw [ensures_iff_of_ok (flush_of_empty hbuffer)]
      exact refl_of (Moves P) s
    | cons row rows =>
      rw [hbuffer] at hs
      have hrows : ∀ x ∈ (row :: rows).zipIdx, P x.1 :=
        fun x hx => hs x.1 (List.fst_mem_of_mem_zipIdx hx)
      have hwritten := (moves_onException
        (moves_flushVia hmode retry ⟨row.keys, (row :: rows).zipIdx⟩ hrows)
        (moves_discardBufferIndexes ∅)).bind
          (fun _ => moves_discardBufferIndexes (Finset.range (row :: rows).length)) s
      unfold Ensures at hwritten ⊢
      rwa [flush_of_strict retry hpolicy hbuffer]
  intro s
  by_cases hs : ∀ row ∈ s.buffer, P row
  · exact hflush P s hs
  · refine (hflush (fun _ => True) s (fun _ _ => trivial)).mono (fun _ t ht => ?_)
    exact ⟨fun h => absurd h.1 hs, ht.committed⟩

/-- **What a flush has found in the buffer is committed** if it returns. -/
theorem stores_flush (s : FlushState κ ν) :
    Ensures (cfg.flush retry) s (fun r t =>
      ∀ b, r = .ok b → ∀ row ∈ s.buffer, ∃ i, (row, i) ∈ t.committed) := by
  cases hbuffer : s.buffer with
  | nil =>
    rw [ensures_iff_of_ok (flush_of_empty hbuffer)]
    exact fun _ _ _ => nofun
  | cons row rows =>
    have hstored := stores_onException
      (stores_flushVia hmode retry ⟨row.keys, (row :: rows).zipIdx⟩) (discardBufferIndexes ∅) s
    have hwritten : Ensures
        (onException (cfg.flushVia retry ⟨row.keys, (row :: rows).zipIdx⟩) (discardBufferIndexes ∅)
          >>= fun _ => discardBufferIndexes (Finset.range (row :: rows).length)) s
        (fun r t => ∀ b, r = .ok b → ∀ x ∈ (row :: rows).zipIdx, x ∈ t.committed) :=
      hstored.bind (fun _ t ht _ _ => ht ⟨⟩ rfl) (fun _ _ _ _ => nofun)
    unfold Ensures at hwritten ⊢
    rw [flush_of_strict retry hpolicy hbuffer]
    have hmem : ∀ x ∈ row :: rows, ∃ i, (x, i) ∈ (row :: rows).zipIdx := by
      intro x hx
      obtain ⟨i, hi, rfl⟩ := List.mem_iff_getElem.1 hx
      exact ⟨i, List.mk_mem_zipIdx_iff_getElem?.2 (List.getElem?_eq_getElem hi)⟩
    revert hwritten
    generalize (onException (cfg.flushVia retry ⟨row.keys, (row :: rows).zipIdx⟩)
      (discardBufferIndexes ∅)
        >>= fun _ => discardBufferIndexes (Finset.range (row :: rows).length)) s = result
    intro hwritten
    cases result with
    | error r t => exact fun _ => nofun
    | ok b t =>
      intro b' hb' x hx
      obtain ⟨i, hi⟩ := hmem x hx
      exact ⟨i, hwritten b' hb' _ hi⟩

/-- **A row is enqueued.** -/
theorem moves_enqueueRow {row : Row κ ν} (hrow : P row) :
    Respects (Moves P) (cfg.enqueueRow retry row) := by
  unfold enqueueRow
  refine Respects.bind (respects_modify (fun s => ?_)) (fun _ => ?_)
  · refine ⟨fun hs => ⟨fun x hx => ?_, hs.2⟩, fun _ hx => hx⟩
    rcases List.mem_append.1 hx with hx | hx
    · exact hs.1 x hx
    · rw [List.mem_singleton.1 hx]
      exact hrow
  · refine respects_get.bind (fun t => ?_)
    split
    · refine (moves_flush retry hmode hpolicy).tryCatch (fun r => ?_)
      cases r with
      | other e => exact respects_throw _
      | writeError error =>
        refine Respects.bind ?_ (fun _ => respects_throw _)
        unfold dropRejected
        split
        · exact respects_modify (fun _ => ⟨fun h => ⟨nofun, h.2⟩, fun _ hx => hx⟩)
        · exact respects_pure _
    · exact respects_pure _

/-- **A record is written and flushed**, and no other row comes of it. -/
theorem moves_writeAndFlush {record : U}
    (hrecord : ∀ row, cfg.rowMapper record = .ok row → P row) :
    Respects (Moves P) (cfg.writeAndFlush retry true record) := by
  unfold writeAndFlush
  rw [write_of_strict retry hpolicy]
  refine Respects.bind ?_ (fun _ => moves_flush retry hmode hpolicy)
  cases hrow : cfg.rowMapper record with
  | ok row => exact moves_enqueueRow retry hmode hpolicy (hrecord row hrow)
  | error e => exact respects_throw _

/-- **What is written and flushed is committed.** -/
theorem stores_writeAndFlush {record : U} (s : FlushState κ ν) :
    Ensures (cfg.writeAndFlush retry true record) s (fun r t => ∀ b, r = .ok b →
      ∃ row i, cfg.rowMapper record = .ok row ∧ (row, i) ∈ t.committed) := by
  unfold writeAndFlush
  rw [write_of_strict retry hpolicy]
  cases hrow : cfg.rowMapper record with
  | error e => exact nofun
  | ok row =>
    -- after the write the row is in the buffer, or it has been flushed already
    have hwritten : Ensures (cfg.enqueueRow retry row) s (fun r t => ∀ b, r = .ok b →
        row ∈ t.buffer ∨ ∃ i, (row, i) ∈ t.committed) := by
      unfold enqueueRow
      rw [ensures_bind, ensures_modify]
      dsimp only
      have hmem : row ∈ s.buffer ++ [row] := List.mem_append_right _ (List.mem_singleton_self row)
      rw [ensures_bind, ensures_get]
      dsimp only
      split
      · rw [ensures_tryCatch]
        refine (stores_flush retry hmode hpolicy _).mono (fun r t ht => ?_)
        cases r with
        | ok b => exact fun b' hb' => .inr (ht b' hb' row hmem)
        | error r =>
          cases r with
          | other e => exact nofun
          | writeError error =>
            show Ensures (cfg.dropRejected error >>= fun _ => throw (Raised.writeError error)) t _
            rw [ensures_bind]
            unfold dropRejected
            split
            · exact nofun
            · exact nofun
      · exact fun _ _ => .inl hmem
    refine hwritten.bind (fun b t ht => ?_) (fun _ _ _ => nofun)
    rw [if_pos rfl]
    have hmoves := moves_flush (P := fun _ => True) retry hmode hpolicy t
    refine ((stores_flush retry hmode hpolicy t).and hmoves).mono (fun r u hu b' hb' => ?_)
    refine ⟨row, ?_⟩
    rcases ht b rfl with hbuffer | ⟨i, hi⟩
    · obtain ⟨i, hi⟩ := hu.1 b' hb' row hbuffer
      exact ⟨i, rfl, hi⟩
    · exact ⟨i, rfl, hu.2.committed _ hi⟩

end Sql

end SinkConfig
/-! ## The key of a message -/

namespace RedisPostgresProfile

variable {T ν : Type} {values : CellValues ν} {profile : RedisPostgresProfile T ν}

/-- **A profile that keeps messages apart**: its row mapper leaves the key as it is, or out, and the
metadata are put somewhere else. -/
structure KeepsKeys (profile : RedisPostgresProfile T ν) : Prop where
  rowMapper : ∀ {record row}, profile.rowMapper record = .ok row →
    row.lookup profile.delivery.keyField = none
      ∨ row.lookup profile.delivery.keyField = record.lookup profile.delivery.keyField
  metadataField : profile.delivery.metadataField ≠ some profile.delivery.keyField

/-- **A row that is decorated** has the delivery as its key. -/
theorem lookup_decorate (h : profile.KeepsKeys) (messageId : String) (outbound : Row String ν) :
    (profile.decorate values messageId outbound).lookup profile.delivery.keyField
      = some (some (values.text (profile.context messageId).deliveryId)) := by
  unfold decorate
  cases hmetadata : profile.delivery.metadataField with
  | none => exact AList.lookup_insert _
  | some field =>
    have hne : profile.delivery.keyField ≠ field := by
      rintro rfl
      exact h.metadataField hmetadata
    exact (AList.lookup_insert_ne hne).trans (AList.lookup_insert _)

/-- A field that is preserved leaves the others alone. -/
theorem lookup_preserveField {field c : String} {record row : Row String ν} (hne : c ≠ field) :
    (preserveField field record row).lookup c = row.lookup c := by
  unfold preserveField
  split
  · split
    · rfl
    · exact AList.lookup_insert_ne hne
  · rfl

/-- **The row of a message has its key.** -/
theorem lookup_withRedisDeliveryFields (h : profile.KeepsKeys) {record row : Row String ν} {v : ν}
    (hv : record.lookup profile.delivery.keyField = some (some v))
    (hrow : withRedisDeliveryFields profile.rowMapper profile.delivery record = .ok row) :
    row.lookup profile.delivery.keyField = some (some v) := by
  obtain ⟨mapped, hmapped, hrow⟩ := exists_of_bind_eq_ok hrow
  have hkey : (preserveField profile.delivery.keyField record mapped).lookup
      profile.delivery.keyField = some (some v) := by
    unfold preserveField
    rw [hv]
    dsimp only
    split
    next hmem =>
      rcases h.rowMapper hmapped with hnone | hsame
      · exact absurd hmem (AList.lookup_eq_none.1 hnone)
      · rw [hsame, hv]
    next => exact AList.lookup_insert _
  cases hrow
  cases hmetadata : profile.delivery.metadataField with
  | none => exact hkey
  | some field =>
    have hne : profile.delivery.keyField ≠ field := by
      rintro rfl
      exact h.metadataField hmetadata
    exact (lookup_preserveField hne).trans hkey

/-- **Two messages have two deliveries.** -/
theorem deliveryId_injective {a b : String}
    (h : (profile.context a).deliveryId = (profile.context b).deliveryId) : a = b := by
  have h : profile.stream ++ ":" ++ a = profile.stream ++ ":" ++ b := h
  exact (String.append_right_inj _).1 h

end RedisPostgresProfile
/-! ## What a run keeps -/

namespace RedisPostgresRuntime

open FlushConfig SinkConfig
open PostgresSink (Raised)

variable {T ν : Type} {rt : RedisPostgresRuntime String T (Row String ν) String ν}
  {entry : String → T} {s t : Session ν}

/-- The rows of some messages. -/
def RowOfSome (rt : RedisPostgresRuntime String T (Row String ν) String ν) (entry : String → T)
    (ids : List String) (row : Row String ν) : Prop :=
  ∃ id ∈ ids, rt.rowOf entry id = some row

/-- **What is so after every event**: each row that the sink has is the row of a message that was
handed out, and the row of a message that is acknowledged is committed. -/
structure Sound (rt : RedisPostgresRuntime String T (Row String ν) String ν) (entry : String → T)
    (s : Session ν) : Prop where
  holds : Holds (RowOfSome rt entry s.seen) s.runtime.sink
  acknowledged : ∀ id ∈ s.runtime.acknowledged, ∃ row i, rt.rowOf entry id = some row
    ∧ (row, i) ∈ s.runtime.sink.committed
  acksHandled : AcksHandled s.runtime

theorem sound_initial : Sound rt entry {} :=
  ⟨⟨nofun, nofun, nofun⟩, nofun, by rintro id (hid | hid) <;> cases hid⟩

/-- Where the sink's rows go on, and acknowledging does not. -/
theorem Sound.moves {ids : List String} {v : FlushState String ν} (h : Sound rt entry s)
    (hmoves : Moves (RowOfSome rt entry (s.seen ++ ids)) s.runtime.sink v)
    (runtime : State String String ν) (hsink : runtime.sink = v)
    (hacknowledged : runtime.acknowledged = s.runtime.acknowledged)
    (hacks : AcksHandled runtime) : Sound rt entry ⟨runtime, s.seen ++ ids⟩ := by
  have hholds : Holds (RowOfSome rt entry (s.seen ++ ids)) s.runtime.sink := by
    refine h.holds.mono (fun row hrow => ?_)
    obtain ⟨id, hid, hrow⟩ := hrow
    exact ⟨id, List.mem_append_left _ hid, hrow⟩
  refine ⟨?_, fun id hid => ?_, hacks⟩
  · rw [hsink]
    exact hmoves.holds hholds
  · have hid : id ∈ s.runtime.acknowledged := by
      rw [← hacknowledged]
      exact hid
    obtain ⟨row, i, hrow, hi⟩ := h.acknowledged id hid
    refine ⟨row, i, hrow, ?_⟩
    show (row, i) ∈ runtime.sink.committed
    rw [hsink]
    exact hmoves.committed _ hi

/-- A message is acknowledged once its row is committed. -/
theorem Sound.acks {id : String} {row : Row String ν} {i : ℕ} {u : State String String ν}
    (h : Sound rt entry s) (hrow : rt.rowOf entry id = some row)
    (hi : (row, i) ∈ s.runtime.sink.committed) (hacks : Acks (s.runtime.enqueue id) u) :
    Sound rt entry ⟨u, s.seen⟩ := by
  have hsink : u.sink = s.runtime.sink := hacks.sink
  refine ⟨?_, fun id' hid' => ?_, (h.acksHandled.enqueue id).of_acks hacks⟩
  · show Holds _ u.sink
    rw [hsink]
    exact h.holds
  · have hid' : id' ∈ s.runtime.acknowledged ++ [id] := by
      rw [show s.runtime.acknowledged ++ [id] = u.acknowledged from hacks.acknowledged.symm]
      exact hid'
    show ∃ row i, _ ∧ (row, i) ∈ u.sink.committed
    rw [hsink]
    rcases List.mem_append.1 hid' with hid' | hid'
    · exact h.acknowledged id' hid'
    · rw [List.mem_singleton.1 hid']
      exact ⟨row, i, hrow, hi⟩

section Sql

variable (hmode : rt.sink.insertMode = .sql) (hpolicy : rt.sink.policy = .strict)

include hmode hpolicy

/-- **A delivery.** -/
theorem Sound.deliver (h : Sound rt entry s) (call : Call String T String ν)
    (hentry : call.record = entry call.id) :
    Sound rt entry ⟨(rt.deliver call.retry call.record (s.runtime.handOut call)).state,
      s.seen ++ [call.id]⟩ := by
  have hanswers : Moves (RowOfSome rt entry (s.seen ++ [call.id])) s.runtime.sink
      (s.runtime.handOut call).sink := moves_of_eq rfl rfl rfl
  cases houtbound : (rt.transform call.record).map (rt.decorate call.id) with
  | error e =>
    rw [deliver_of_outbound_error houtbound]
    exact h.moves hanswers (s.runtime.handOut call) rfl rfl h.acksHandled
  | ok outbound =>
    have hrowOf : rt.rowOf entry call.id = (rt.sink.rowMapper outbound).toOption := by
      unfold rowOf
      rw [← hentry, houtbound]
    have hrecord : ∀ row, rt.sink.rowMapper outbound = .ok row →
        RowOfSome rt entry (s.seen ++ [call.id]) row := by
      intro row hrow
      rw [hrow] at hrowOf
      exact ⟨call.id, List.mem_append_right _ (List.mem_singleton_self _), hrowOf⟩
    have hsink := rt.onSink_writeAndFlush call.retry outbound (s.runtime.handOut call)
    have hwritten := (moves_writeAndFlush call.retry hmode hpolicy hrecord
      (s.runtime.handOut call).sink).and (stores_writeAndFlush call.retry hmode hpolicy _)
    rw [deliver_of_outbound_ok houtbound]
    cases hwrite : rt.sink.writeAndFlush call.retry true outbound (s.runtime.handOut call).sink with
    | error r v =>
      rw [hwrite] at hsink
      rw [bind_of_error hsink]
      exact h.moves (trans_of (Moves _) hanswers (hwritten.of_error hwrite).1)
        { s.runtime.handOut call with sink := v } rfl rfl h.acksHandled
    | ok b v =>
      obtain ⟨hmoves, hstored⟩ := hwritten.of_ok hwrite
      obtain ⟨row, i, hrow, hi⟩ := hstored b rfl
      rw [hrow] at hrowOf
      have hkept := h.moves (trans_of (Moves _) hanswers hmoves)
        { s.runtime.handOut call with sink := v } rfl rfl h.acksHandled
      rw [hwrite] at hsink
      rw [bind_of_ok hsink]
      have hack := rt.ensures_acknowledge call.id { s.runtime.handOut call with sink := v }
      cases hresult : (rt.ackHook call.id >>= fun _ => rt.flushPendingAcks)
          { s.runtime.handOut call with sink := v } with
      | ok _ u =>
        rw [bind_of_ok hresult]
        exact hkept.acks hrowOf hi (hack.of_ok hresult).1
      | error e u =>
        rw [bind_of_error hresult]
        exact hkept.acks hrowOf hi (hack.of_error hresult).1

/-- **One event.** -/
theorem sound_step (h : Sound rt entry s) {event : Event ν}
    (hstep : rt.step entry s event = some t) : Sound rt entry t := by
  cases event with
  | delivered id answers replies retry =>
    cases hstep
    exact h.deliver hmode hpolicy (callOf entry id answers replies retry) rfl
  | flushed answers retry =>
    cases hstep
    let sink := { s.runtime.sink with script := answers }
    have hanswers : Moves (RowOfSome rt entry (s.seen ++ [])) s.runtime.sink sink :=
      moves_of_eq rfl rfl rfl
    have hflush : Moves (RowOfSome rt entry (s.seen ++ [])) sink
        (finalState (rt.sink.flush retry) sink) := (moves_flush retry hmode hpolicy _).finalState
    have hsound := h.moves (trans_of (Moves _) hanswers hflush)
      { s.runtime with sink := finalState (rt.sink.flush retry) sink } rfl rfl h.acksHandled
    rwa [List.append_nil] at hsound
  | landed ids =>
    obtain ⟨hseen, hstep⟩ := Option.ite_none_right_eq_some.1 hstep
    cases hstep
    refine ⟨⟨h.holds.1, h.holds.2.1, fun x hx => ?_⟩, fun id hid => ?_, h.acksHandled⟩
    · rcases List.mem_append.1 hx with hx | hx
      · exact h.holds.2.2 x hx
      · obtain ⟨row, hrow, rfl⟩ := List.mem_map.1 hx
        obtain ⟨id, hid, hrow⟩ := List.mem_filterMap.1 hrow
        exact ⟨id, hseen id hid, hrow⟩
    · obtain ⟨row, i, hrow, hi⟩ := h.acknowledged id hid
      exact ⟨row, i, hrow, List.mem_append_left _ hi⟩
  | restarted =>
    cases hstep
    refine ⟨⟨nofun, nofun, h.holds.2.2⟩, h.acknowledged, ?_⟩
    rintro id (hid | hid)
    · exact h.acksHandled id (.inl hid)
    · cases hid

end Sql

end RedisPostgresRuntime
/-! ## Every message once -/

namespace RedisPostgresRuntime

open RepeatedOps

variable {T ν : Type} [DecidableEq ν] {rt : RedisPostgresRuntime String T (Row String ν) String ν}
  {entry : String → T} {s : Session ν}

variable (rt entry) in
/-- **Messages are kept apart** in the table: the rows that there are have keys, and those of two
messages have two. -/
structure Keyed : Prop where
  keyed : ∀ {id row}, rt.rowOf entry id = some row →
    key rt.sink.conflictKeys (rt.proposal row).tuple ≠ none
  apart : ∀ {a b rowA rowB}, rt.rowOf entry a = some rowA → rt.rowOf entry b = some rowB →
    key rt.sink.conflictKeys (rt.proposal rowA).tuple
      = key rt.sink.conflictKeys (rt.proposal rowB).tuple → a = b

variable (rt entry) in
/-- The row of a message is upserted, if it has one. -/
def upsertOf (t : Table String ν) (id : String) : Table String ν :=
  match rt.rowOf entry id with
  | none => t
  | some row => upsert rt.sink.conflictKeys t (rt.proposal row)

theorem upsertOf_of_row {id : String} {row : Row String ν} (h : rt.rowOf entry id = some row)
    (t : Table String ν) :
    upsertOf rt entry t id = upsert rt.sink.conflictKeys t (rt.proposal row) := by
  unfold upsertOf
  rw [h]

/-- The row of a message may be written again, and after others. -/
theorem Keyed.repeatable (h : Keyed rt entry) : Repeatable (upsertOf rt entry) where
  twice t id := by
    cases hrow : rt.rowOf entry id with
    | none =>
      unfold upsertOf
      rw [hrow]
    | some row =>
      rw [upsertOf_of_row hrow, upsertOf_of_row hrow]
      exact upsert_upsert (h.keyed hrow) t
  swap t a b := by
    by_cases hab : a = b
    · rw [hab]
    · cases hrowA : rt.rowOf entry a with
      | none =>
        unfold upsertOf
        rw [hrowA]
      | some rowA =>
        cases hrowB : rt.rowOf entry b with
        | none =>
          unfold upsertOf
          rw [hrowB]
        | some rowB =>
          rw [upsertOf_of_row hrowA, upsertOf_of_row hrowB, upsertOf_of_row hrowB,
            upsertOf_of_row hrowA]
          exact upsert_comm (h.keyed hrowA) (h.keyed hrowB)
            (fun hkey => hab (h.apart hrowA hrowB hkey)) t

/-- **Messages put their rows in** one after the other; one without a row puts in none. -/
theorem upserts_filterMap (ids : List String) (t : Table String ν) :
    upserts rt.sink.conflictKeys t
        (ids.filterMap (fun id => (rt.rowOf entry id).map rt.proposal))
      = ids.foldl (upsertOf rt entry) t := by
  induction ids generalizing t with
  | nil => rfl
  | cons id ids ih =>
    cases hrow : rt.rowOf entry id with
    | none =>
      have hsame : upsertOf rt entry t id = t := by
        unfold upsertOf
        rw [hrow]
      rw [List.filterMap_cons_none (by rw [hrow]; rfl), List.foldl_cons, hsame, ih]
    | some row =>
      rw [List.filterMap_cons_some (by rw [hrow]; rfl), List.foldl_cons, upsertOf_of_row hrow, ← ih]
      rfl

omit [DecidableEq ν] in
/-- The messages that the committed rows are of, one for each. -/
theorem exists_ids {ids : List String} : ∀ {xs : List (Row String ν × ℕ)},
    (∀ x ∈ xs, RowOfSome rt entry ids x.1) →
      ∃ chosen : List String, (∀ id ∈ chosen, id ∈ ids)
        ∧ chosen.map (rt.rowOf entry) = xs.map (fun x => some x.1)
  | [], _ => ⟨[], nofun, rfl⟩
  | x :: xs, h => by
    obtain ⟨id, hid, hrow⟩ := h x List.mem_cons_self
    obtain ⟨chosen, hchosen, hrows⟩ := @exists_ids ids xs
      (fun y hy => h y (List.mem_cons_of_mem x hy))
    refine ⟨id :: chosen, ?_, ?_⟩
    · rintro id' (_ | ⟨_, hid'⟩)
      · exact hid
      · exact hchosen id' hid'
    · rw [List.map_cons, List.map_cons, hrow, hrows]

omit [DecidableEq ν] in
/-- The same proposals, from the messages or from the rows. -/
theorem filterMap_of_map_eq {ids : List String} {xs : List (Row String ν × ℕ)}
    (h : ids.map (rt.rowOf entry) = xs.map (fun x => some x.1)) :
    ids.filterMap (fun id => (rt.rowOf entry id).map rt.proposal)
      = xs.map (fun x => rt.proposal x.1) := by
  have hids : ids.filterMap (fun id => (rt.rowOf entry id).map rt.proposal)
      = (ids.map (rt.rowOf entry)).filterMap (fun row => row.map rt.proposal) := by
    rw [List.filterMap_map]
    rfl
  rw [hids, h, List.filterMap_map]
  exact congrFun (@List.filterMap_eq_map' _ _ (fun x : Row String ν × ℕ => rt.proposal x.1)) xs

/-- **Every message once**, in a sound session whose messages are kept apart. -/
theorem Sound.once (hs : Sound rt entry s) (hkeyed : Keyed rt entry) (t : Table String ν) :
    s.Once rt entry t := by
  obtain ⟨ids, hseen, hrows⟩ := exists_ids hs.holds.2.2
  refine ⟨ids.dedup, ids.nodup_dedup, fun id hid => hseen id (List.mem_dedup.1 hid), ?_, ?_⟩
  · intro id hid
    have hid : id ∈ s.runtime.acknowledged :=
      hid.elim (fun h => h) (fun h => hs.acksHandled id (.inl h))
    obtain ⟨row, i, hrow, hi⟩ := hs.acknowledged id hid
    have hmem : some row ∈ ids.map (rt.rowOf entry) := by
      rw [hrows]
      exact List.mem_map_of_mem hi
    obtain ⟨id', hid', hrow'⟩ := List.mem_map.1 hmem
    rw [hkeyed.apart hrow hrow' rfl]
    exact List.mem_dedup.2 hid'
  · unfold Session.table
    rw [upserts_filterMap, hkeyed.repeatable.foldl_dedup, ← upserts_filterMap,
      filterMap_of_map_eq hrows]

end RedisPostgresRuntime

/-! ## The law -/

namespace RedisPostgresProfile

open RedisPostgresRuntime

variable {T ν : Type} [DecidableEq ν] {values : CellValues ν} {profile : RedisPostgresProfile T ν}
  {rt : RedisPostgresRuntime String T (Row String ν) String ν} {entry : String → T}

omit [DecidableEq ν] in
/-- **What is built**: a runtime whose conflict columns contain the key. -/
theorem eq_of_build (h : profile.build values = .ok rt) :
    profile.delivery.keyField ∈ profile.conflictKeys
      ∧ rt.sink.conflictKeys = profile.conflictKeys ∧ rt.sink.policy = .strict
      ∧ rt.sink.insertMode = profile.insertMode
      ∧ rt.sink.rowMapper = withRedisDeliveryFields profile.rowMapper profile.delivery
      ∧ rt.decorate = profile.decorate values := by
  unfold build at h
  split at h
  · cases h
  · split at h
    · cases h
    · rename_i hkey
      split at h
      · cases h
      · split at h
        · cases h
        · cases h
          exact ⟨not_not.1 hkey, rfl, rfl, rfl, rfl, rfl⟩

omit [DecidableEq ν] in
/-- **The key of a message is in its tuple.** -/
theorem tuple_proposal (hbuild : profile.build values = .ok rt) (hkeeps : profile.KeepsKeys)
    {id : String} {row : Row String ν} (hrow : rt.rowOf entry id = some row) :
    (rt.proposal row).tuple profile.delivery.keyField
      = some (values.text (profile.context id).deliveryId) := by
  obtain ⟨-, -, -, -, hmapper, hdecorate⟩ := eq_of_build hbuild
  have hlookup : row.lookup profile.delivery.keyField
      = some (some (values.text (profile.context id).deliveryId)) := by
    unfold rowOf at hrow
    cases htransform : rt.transform (entry id) with
    | error e =>
      rw [htransform] at hrow
      cases hrow
    | ok outbound =>
      rw [htransform, hmapper, hdecorate] at hrow
      have hrow : (withRedisDeliveryFields profile.rowMapper profile.delivery
          (profile.decorate values id outbound)).toOption = some row := hrow
      cases hmapped : withRedisDeliveryFields profile.rowMapper profile.delivery
          (profile.decorate values id outbound) with
      | error e =>
        rw [hmapped] at hrow
        cases hrow
      | ok row' =>
        rw [hmapped] at hrow
        cases hrow
        exact lookup_withRedisDeliveryFields hkeeps (lookup_decorate hkeeps id outbound) hmapped
  have hmem : profile.delivery.keyField ∈ row.keys.toFinset := by
    rw [List.mem_toFinset]
    exact AList.lookup_isSome.1 (by rw [hlookup]; rfl)
  show (if _ ∈ row.keys.toFinset then _ else _) = _
  rw [if_pos hmem, hlookup]
  rfl

omit [DecidableEq ν] in
/-- With the delivery key alone for a conflict column, every row has a key. -/
theorem key_ne_none_of_default (hbuild : profile.build values = .ok rt)
    (hkeeps : profile.KeepsKeys) (hdefault : profile.conflictKey = []) {id : String}
    {row : Row String ν} (hrow : rt.rowOf entry id = some row) :
    key rt.sink.conflictKeys (rt.proposal row).tuple ≠ none := by
  have hkeys : rt.sink.conflictKeys = [profile.delivery.keyField] := by
    rw [(eq_of_build hbuild).2.1]
    exact if_pos hdefault
  have htuple := tuple_proposal hbuild hkeeps hrow
  unfold key
  rw [if_pos]
  · exact Option.some_ne_none _
  · intro c hc
    rw [hkeys, List.mem_singleton] at hc
    rw [hc, htuple]
    exact Option.some_ne_none _

omit [DecidableEq ν] in
/-- Rows with keys are kept apart. -/
theorem keyed_of_build (hbuild : profile.build values = .ok rt) (hkeeps : profile.KeepsKeys)
    (hkeyed : ∀ id row, rt.rowOf entry id = some row →
      key rt.sink.conflictKeys (rt.proposal row).tuple ≠ none) : Keyed rt entry where
  keyed := fun {id row} => hkeyed id row
  apart := by
    intro a b rowA rowB hrowA hrowB hkey
    obtain ⟨hcolumn, hkeys, -⟩ := eq_of_build hbuild
    rw [← hkeys] at hcolumn
    have htuple : ∀ tuple : Tuple String ν, key rt.sink.conflictKeys tuple ≠ none →
        key rt.sink.conflictKeys tuple = some (rt.sink.conflictKeys.map tuple) := by
      intro tuple htuple
      unfold key at htuple ⊢
      split at htuple
      · rename_i hall
        rw [if_pos hall]
      · exact absurd rfl htuple
    rw [htuple _ (hkeyed a rowA hrowA), htuple _ (hkeyed b rowB hrowB), Option.some.injEq,
      List.map_inj_left] at hkey
    have hkey := hkey _ hcolumn
    rw [tuple_proposal hbuild hkeeps hrowA, tuple_proposal hbuild hkeeps hrowB,
      Option.some.injEq] at hkey
    exact deliveryId_injective (values.text_injective hkey)

end RedisPostgresProfile

namespace RedisPostgresRuntime

variable {T ν : Type} [DecidableEq ν]

/-- **Every message once, in every state of every run** of a runtime that has been built: its row
mapper leaves the keys alone, and the conflict columns are not null. -/
theorem once_of_built (values : CellValues ν) (profile : RedisPostgresProfile T ν)
    {rt : RedisPostgresRuntime String T (Row String ν) String ν}
    (hbuild : profile.build values = .ok rt) (hmode : profile.insertMode = .sql)
    (hkeeps : profile.KeepsKeys) (entry : String → T)
    (hkeyed : ∀ id row, rt.rowOf entry id = some row →
      key rt.sink.conflictKeys (rt.proposal row).tuple ≠ none)
    (t : Table String ν) (events : List (Event ν)) :
    AllStates (rt.step entry) (Session.Once rt entry t) {} events := by
  obtain ⟨-, -, hpolicy, hinsert, -, -⟩ := RedisPostgresProfile.eq_of_build hbuild
  have hsound : AllStates (rt.step entry) (Sound rt entry) {} events :=
    allStates_of_invariant
      (fun _ _ _ hs hstep => sound_step (hinsert.trans hmode) hpolicy hs hstep) sound_initial events
  exact hsound.mono (fun _ hs =>
    hs.once (RedisPostgresProfile.keyed_of_build hbuild hkeeps hkeyed) t)

/-- Texts and dicts of them. -/
def textsAndDicts : CellValues (String ⊕ List (String × String)) :=
  ⟨.inl, .inr, Sum.inl_injective⟩

/-- The entries of `stream` are rows already. -/
def fromStream : RedisPostgresProfile (Row String (String ⊕ List (String × String)))
    (String ⊕ List (String × String)) where
  stream := "orders"
  group := "billing"
  consumer := "billing-1"
  transform := .ok
  batchSize_pos := PostgresSink.one_le_batchSize

/-- What is built from them. -/
def billing : RedisPostgresRuntime String (Row String (String ⊕ List (String × String)))
    (Row String (String ⊕ List (String × String))) String (String ⊕ List (String × String)) where
  sink := {
    conflictKeys := ["redis_delivery_key"]
    rowMapper := withRedisDeliveryFields .ok {}
    batchSize_pos := PostgresSink.one_le_batchSize }
  transform := .ok
  decorate := fromStream.decorate textsAndDicts
  ackBatchSize := 100

/-- The first message is written, but its `XACK` fails, and the process is started anew. It comes
again, before and after another one. -/
def deliveredThrice : List (Event (String ⊕ List (String × String))) :=
  let retry := ⟨id, fun _ s => .last s⟩
  [.delivered "1-0" [] [.raises (.exception "ConnectionError" "")] retry, .restarted,
    .delivered "1-0" [] [] retry, .delivered "2-0" [] [] retry, .delivered "1-0" [] [] retry]

/-- A message that comes three times is in the table once. -/
theorem once_deliveredThrice :
    AllStates (billing.step (fun _ => ∅)) (Session.Once billing (fun _ => ∅) ⟨fun _ => none, 0⟩) {}
      deliveredThrice := by
  have hkeeps : fromStream.KeepsKeys := ⟨fun {record row} h => by
    cases h
    exact .inr rfl, nofun⟩
  have hbuild : fromStream.build textsAndDicts = .ok billing := rfl
  exact once_of_built textsAndDicts fromStream hbuild rfl hkeeps (fun _ => ∅)
    (fun _ _ => RedisPostgresProfile.key_ne_none_of_default hbuild hkeeps rfl) _ deliveredThrice

example : (run (billing.step (fun _ => ∅)) {} deliveredThrice).map (fun s =>
    (s.runtime.sink.committed.length, s.runtime.acked)) = some (4, ["1-0", "2-0", "1-0"]) := by
  decide +kernel

end RedisPostgresRuntime

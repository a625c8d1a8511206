import AgoraPlugins.Machine
import AgoraPlugins.Kafka.Operator
import AgoraPlugins.Kafka.Poison

/-!
# The Kafka source

A source is driven by several coroutines at once. Its stream is a generator: it
polls, deserialises, hands a record out and is resumed when the next is wanted.
Meanwhile the pipeline acknowledges records, perhaps of an older delivery; the
consumer calls back when partitions are assigned or taken away; an operator
commits, seeks, pauses. They share one object and alternate at await points.

The model is a machine whose events are what happens at those points: a poll is
answered, a commit succeeds or fails, a record is acknowledged. Between two of
them code runs without being interrupted, and such a stretch may be long: an
acknowledgement records an offset, then `commit_if_needed` looks at the count
and may commit, and what comes after depends on who called it. The machine
takes the stretch in small steps. `busy` says that the running coroutine is not
at an await point yet, and then the only event is `proceed`, its next step.

What the code cannot see is recorded in `History`: which messages there have
been and what became of each, what the broker has accepted, where the last seek
of a partition stood.
-/

/-- Who called `commit_if_needed` and waits for it. -/
inductive Caller where
  /-- the acknowledgement of a record, by the pipeline -/
  | acknowledge
  /-- the stream, which goes on with its batch -/
  | deliver
  /-- an `except` clause of the stream -/
  | handler
  /-- the `finally` clause of the stream -/
  | final
  /-- the revoked callback, for these partitions -/
  | revoked (partitions : Finset TopicPartition)
  /-- `commit_now` -/
  | commitNow
  /-- `close` -/
  | close
  deriving DecidableEq

/-- Whether the stream itself is waiting. -/
def Caller.isStream : Caller → Bool
  | .deliver | .handler | .final => true
  | .acknowledge | .revoked _ | .commitNow | .close => false

/-- **What a commit asks for**: these offsets, or, with none given, the
positions the consumer has reached. -/
inductive CommitRequest where
  | offsets (offsets : OffsetMap)
  | consumed

/-- The request for some offsets: with none, that for the positions. -/
def CommitRequest.of (offsets : OffsetMap) : CommitRequest :=
  if offsets.entries ≠ [] then .offsets offsets else .consumed

/-- The offsets a request names. -/
def CommitRequest.named : CommitRequest → List (TopicPartition × ℤ)
  | .offsets named => named.entries.map (fun e => (e.1, e.2))
  | .consumed => []

/-- A commit the broker has not answered, and how many records had been handled
when it was issued. -/
structure CommitCall where
  request : CommitRequest
  caller : Caller
  handled : ℕ

/-- A record handed out, with the `acknowledged` flag its hooks share. -/
structure Delivery where
  message : Fetched
  acknowledged : Bool
  deriving DecidableEq

/-- An operator's seek that waits: for a probe of the assignment, or for the
consumer to have sought. -/
inductive OperatorCall where
  | seekToOffsets (offsets : OffsetMap)
  | seekWithConsumerMethod (partitions : Option (Finset TopicPartition))
  | seeking (targets : Finset TopicPartition)

/-- **Where the stream is.** -/
inductive Pc where
  /-- not started -/
  | idle
  /-- awaiting the probe of `refresh_assignment_state` -/
  | refreshing
  /-- awaiting the probe of `apply_initial_positioning` -/
  | positioning
  /-- awaiting a poll, after so many idle ones -/
  | polling (idlePolls : ℕ)
  /-- between two records of the batch -/
  | advancing
  /-- awaiting the deserializer -/
  | deserializing
  /-- awaiting the capture of what could not be deserialised -/
  | capturing (stage : String) (e : Exc)
  /-- a record is handed out -/
  | yielded (delivery : ℕ)
  /-- awaiting a commit -/
  | committing
  | ended
  deriving DecidableEq

/-- **What has happened**, as nobody in the program records it. Messages are
named by their `seq`. -/
structure History where
  /-- every message a call of `getmany` returned, in order -/
  returned : List Fetched := []
  /-- handed to the pipeline -/
  emitted : List ℕ := []
  /-- handled as poison -/
  poisoned : List ℕ := []
  /-- the messages dropped under the policy -/
  dropped : List Fetched := []
  /-- acknowledged, passed over, dropped, or committed in a transaction -/
  settled : List ℕ := []
  /-- how many acknowledgements and drops have been recorded -/
  handled : ℕ := 0
  /-- how many messages had been returned when the stream started -/
  streamStart : ℕ := 0
  /-- whether a stream has started in the session -/
  streamed : Bool := false
  /-- how many messages had been returned when a partition was last sought -/
  seekMark : TopicPartition → ℕ := fun _ => 0
  /-- the offsets the broker has accepted, in commits that named them -/
  committed : List (TopicPartition × ℤ) := []

/-- The default of `commit_every` is accepted. -/
theorem one_le_commitEvery : 1 ≤ 100 := by decide

/-- The settings of a source. -/
structure SourceConfig where
  assignments : Finset TopicPartition := ∅
  startOffsets : OffsetMap := ∅
  enableAutoCommit : Bool := false
  commitEvery : ℕ := 100
  maxIdlePolls : Option ℕ := none
  hasBatchDeserializer : Bool := false
  poison : PoisonConfig := {}
  commitEvery_pos : 1 ≤ commitEvery := by exact one_le_commitEvery

/-- **The books of a source**: what it has in hand and on record, the consumer's
side included, wherever its coroutines are. -/
structure Books where
  operator : Operator := {}
  cursor : CursorState := {}
  poison : PoisonState := {}
  deliveries : List Delivery := []
  /-- what is left of the batch, the message at hand first -/
  batch : List Fetched := []
  commits : List CommitCall := []
  calls : List OperatorCall := []
  history : History := {}

/-- **The state of a source**: its books, the counters of its stream, and where
the coroutines are. -/
structure Source extends Books where
  recordErrorCount : ℕ := 0
  recordDropCount : ℕ := 0
  batchDeserializeErrorCount : ℕ := 0
  /-- the delivery whose hooks the source exposes -/
  activeDelivery : Option ℕ := none
  pc : Pc := .idle
  /-- a call of `commit_if_needed` that has just been made, and `force` -/
  call : Option (Caller × Bool) := none

/-- A source as it is constructed. -/
def Source.new (cfg : SourceConfig) : Source where
  operator := { controls := { activeAssignment := cfg.assignments } }
  cursor := { startOffsets := cfg.startOffsets }

/-- What happens at an await point. -/
inductive Event where
  /-- the running coroutine's next step -/
  | proceed
  | openPoisonSink (script : List Reply)
  | closePoisonSink (script : List Reply)
  | open (position : TopicPartition → ℤ)
  | close
  | prepareResume (checkpoint : Option SavedCheckpoint)
  | checkpoint
  | stream
  /-- the answer to a probe of the stream's, which failing is no message -/
  | probed (message : Option ConsumerRecord)
  | polled (messages : List ConsumerRecord)
  | pollStopped
  | pollFailed
  | deserialized
  | deserializedBatch (count : ℕ)
  | malformed (e : Exc)
  | captured (script : List Reply)
  /-- the pipeline asks for the next record -/
  | next
  /-- the pipeline closes the stream -/
  | closeStream
  | interrupted
  | acknowledge (delivery : ℕ)
  | transactionCommitted (delivery : ℕ)
  | committed (call : ℕ)
  | commitFailed (call : ℕ)
  | assigned (partitions : Finset TopicPartition) (position : TopicPartition → ℤ)
  | revoked (partitions : Finset TopicPartition)
  | commitNow
  | pause (partitions : Option (Finset TopicPartition))
  | resume (partitions : Option (Finset TopicPartition))
  | seekToOffsets (offsets : OffsetMap)
  | seekWithConsumerMethod (partitions : Option (Finset TopicPartition))
  | operatorProbed (call : ℕ) (message : Option ConsumerRecord)
  | seeked (call : ℕ) (position : TopicPartition → ℤ)
  /-- the consumer's method raises; it may have moved these by then -/
  | seekFailed (call : ℕ) (moved : Finset TopicPartition) (position : TopicPartition → ℤ)

namespace Source

variable (s : Source)

/-- Whether the running coroutine is not at an await point. -/
def busy : Bool :=
  s.call.isSome || s.pc = .advancing

/-! ## Offsets and commits -/

/-- Records that a message has been handled: it may be committed. -/
def recordHandled (f : Fetched) (cursor : CursorState) : Source :=
  { s with
    cursor
    history := { s.history with
      settled := s.history.settled ++ [f.seq]
      handled := s.history.handled + 1 } }

/-- `mark_delivered_message`, for an acknowledged or a dropped message. -/
def markDelivered (cfg : SourceConfig) (f : Fetched) : Source :=
  s.recordHandled f (s.cursor.markDeliveredMessage f.tp f.offset cfg.enableAutoCommit)

/-- `commit_if_needed()` is called if offsets are committed by hand. -/
def callCommit (cfg : SourceConfig) (caller : Caller) : Source :=
  if cfg.enableAutoCommit then
    match caller with
    | .deliver => { s with pc := .advancing }
    | _ => s
  else { s with call := some (caller, false) }

/-- `clear_active_delivery`. -/
def clearActiveDelivery : Source := { s with activeDelivery := none }

/-- The `finally` clause of the stream. -/
def finalize : Source :=
  { s.clearActiveDelivery with pc := .committing, call := some (.final, true) }

/-- An `except` clause of the stream. -/
def handleError : Source :=
  { s with pc := .committing, call := some (.handler, true) }

/-- The rest of the revoked callback, once its commit has returned. -/
def dropRevoked (revoked : Finset TopicPartition) : Source :=
  { s with
    cursor := s.cursor.dropRevoked revoked
    operator := { s.operator with controls := s.operator.controls.dropRevoked revoked } }

/-- The partitions are gone from the consumer, however the callback went. -/
def partitionsLost (revoked : Finset TopicPartition) : Source :=
  { s with
    operator := { s.operator with consumer := s.operator.consumer.revoke revoked } }

/-- The consumer is stopped and dropped. -/
def consumerClosed : Source :=
  { s.clearActiveDelivery with
    operator := { s.operator with
      opened := false
      controls := { s.operator.controls with activeAssignment := ∅ }
      consumer := {} } }

/-- **`commit_if_needed` returns** to its caller. -/
def commitReturns : Caller → Source
  | .acknowledge | .commitNow => s
  | .deliver => { s with pc := .advancing }
  | .handler => s.finalize
  | .final => { s with pc := .ended }
  | .revoked ps => (s.dropRevoked ps).partitionsLost ps
  | .close => s.consumerClosed

/-- **`commit_if_needed` raises** to its caller. The revoked callback forgets
nothing then; `close` logs and goes on. -/
def commitRaises : Caller → Source
  | .acknowledge | .commitNow => s
  | .deliver => s.handleError
  | .handler => s.finalize
  | .final => { s with pc := .ended }
  | .revoked ps => s.partitionsLost ps
  | .close => s.consumerClosed

/-- A commit of the committable offsets is sent to the broker. -/
def issueCommit (caller : Caller) : Source :=
  { s with
    commits := s.commits
      ++ [⟨CommitRequest.of s.cursor.buildCommitOffsets, caller, s.history.handled⟩]
    pc := if caller.isStream then .committing else s.pc }

/-- Whether `commit_if_needed` has something to commit, and enough of it. -/
def commitDue (cfg : SourceConfig) (force : Bool) : Bool :=
  s.operator.opened && !cfg.enableAutoCommit && 0 < s.cursor.pendingCommitCount
    && (force || cfg.commitEvery ≤ s.cursor.pendingCommitCount)

/-- **`commit_if_needed`.** -/
def commitIfNeeded (cfg : SourceConfig) (caller : Caller) (force : Bool) : Source :=
  if s.commitDue cfg force then s.issueCommit caller else s.commitReturns caller

/-- The broker has accepted a commit. -/
def recordCommit (request : CommitRequest) : Source :=
  { s with
    cursor := s.cursor.clearPendingCommitCount
    history := { s.history with committed := s.history.committed ++ request.named } }

/-! ## Fetching -/

/-- **`getmany` returns a message**: the consumer moves past it. -/
def fetchOne (record : ConsumerRecord) : Option (Fetched × Source) := do
  let consumer ← s.operator.consumer.fetch record.tp record.offset
  let f : Fetched := ⟨record, s.history.returned.length⟩
  pure (f, { s with
    operator := { s.operator with consumer }
    history := { s.history with returned := s.history.returned ++ [f] } })

/-- `getmany` returns messages. -/
def fetchAll : Source → List ConsumerRecord → Option (List Fetched × Source)
  | s, [] => some ([], s)
  | s, record :: records => do
    let (f, s) ← s.fetchOne record
    let (fs, s) ← fetchAll s records
    pure (f :: fs, s)

/-- A probe, whose answer nobody keeps. -/
def probe (message : Option ConsumerRecord) : Option Source :=
  match message with
  | none => some s
  | some record => (s.fetchOne record).map Prod.snd

/-- An operator call on the source: whether it returns or raises, what it did
stays. -/
def operate {α : Type} (m : OperatorM α) : Source :=
  { s with operator := Effect.finalState m s.operator }

/-! ## The start of a stream -/

/-- Where a target is sought to: a start offset exactly, a resumed one past the
record that was processed. -/
def targetPosition (exact : Bool) (offset : ℤ) : ℤ :=
  if exact then offset else offset + 1

/-- One seek of `apply_initial_positioning`. With some assignment, a target
outside it is left out with a warning; with none, the seek raises. -/
def seekTarget (assigned : Finset TopicPartition) (exact : Bool)
    (target : Σ _ : TopicPartition, ℤ) : OperatorM PUnit :=
  if assigned ≠ ∅ ∧ target.1 ∉ assigned then pure ⟨⟩
  else Operator.consumerSeek target.1 (targetPosition exact target.2)

/-- The seeks of `apply_initial_positioning`. -/
def seekTargets (targets : OffsetMap) (exact : Bool) : OperatorM PUnit := do
  let assigned := (← get).consumer.assignment
  targets.entries.forM (seekTarget assigned exact)

/-- The end of `bootstrap_consumer_state`: what is to be paused is paused, and
the poll loop begins. What raises here ends the stream before its `try`. -/
def startPolling : Source :=
  if Effect.raises (Operator.applyPauseState none) s.operator then
    { s.operate (Operator.applyPauseState none) with pc := .ended }
  else { s.operate (Operator.applyPauseState none) with pc := .polling 0 }

/-- `mark_positioning_applied`. -/
def markPositioningApplied : Source :=
  { s with cursor := s.cursor.markPositioningApplied }

/-- **The seeks to the positioning targets**, and the rest of the bootstrap. -/
def seekAndStart : Source :=
  let targets := s.cursor.positioningTargets
  let exact := s.cursor.hasExactStartOffsets
  if Effect.raises (seekTargets targets exact) s.operator then
    { s.operate (seekTargets targets exact) with pc := .ended }
  else
    (s.operate (seekTargets targets exact)).markPositioningApplied.startPolling

/-- **`apply_initial_positioning`**, up to its probe if it needs one. -/
def applyInitialPositioning : Source :=
  if s.cursor.positioningApplied then s.startPolling
  else if s.cursor.positioningTargets.entries = [] then s.markPositioningApplied.startPolling
  else if s.cursor.positioningTargets.keys.all (· ∈ s.operator.consumer.assignment) then
    s.seekAndStart
  else { s with pc := .positioning }

/-- The controls take over the consumer's assignment. -/
def syncAssignment : Source :=
  s.operate (Operator.syncActiveAssignment s.operator.consumer.assignment)

/-- `reset_run_state` and `reset_for_stream`: what the last stream left is
forgotten. -/
def resetForStream : Source :=
  { s.clearActiveDelivery with
    recordErrorCount := 0
    recordDropCount := 0
    cursor := s.cursor.resetForStream
    batch := []
    history := { s.history with
      settled := []
      streamStart := s.history.returned.length
      streamed := true } }

/-- **A stream starts**: `refresh_assignment_state`, up to its probe if nothing
is assigned. -/
def startStream : Source :=
  let s := s.resetForStream
  if s.operator.consumer.assignment = ∅ then { s with pc := .refreshing }
  else s.syncAssignment.applyInitialPositioning

/-! ## The batch -/

/-- **A record is handed out**, with hooks of its own. -/
def emitRecord (f : Fetched) (rest : List Fetched) : Source :=
  { s with
    cursor := s.cursor.rememberProcessedOffset f.tp f.offset
    activeDelivery := some s.deliveries.length
    deliveries := s.deliveries ++ [⟨f, false⟩]
    pc := .yielded s.deliveries.length
    batch := rest
    history := { s.history with emitted := s.history.emitted ++ [f.seq] } }

/-- **The batch goes on**: the next message of it, or the next poll. -/
def advance (cfg : SourceConfig) : Source :=
  match s.batch with
  | [] => { s with pc := .polling 0 }
  | f :: rest =>
    if cfg.hasBatchDeserializer then s.emitRecord f rest
    else { s with pc := .deserializing }

/-- The poll loop has an answer. -/
def receive (cfg : SourceConfig) (idlePolls : ℕ) (messages : List Fetched) : Source :=
  if messages = [] then
    match cfg.maxIdlePolls with
    | none => { s with pc := .polling idlePolls }
    | some maxIdlePolls =>
      if maxIdlePolls ≤ idlePolls + 1 then s.finalize
      else { s with pc := .polling (idlePolls + 1) }
  else
    { s.operate (Operator.syncActiveAssignment (messages.map Fetched.tp).toFinset) with
      batch := messages
      pc := .deserializing }

/-- `_ack`, for the caller that called it. -/
def acknowledgeDelivery (cfg : SourceConfig) (i : ℕ) (d : Delivery) (caller : Caller) : Source :=
  ({ s with deliveries := s.deliveries.set i { d with acknowledged := true } }.markDelivered cfg
    d.message).callCommit cfg caller

/-! ## Poison -/

/-- The messages a failure of the deserializer is about: the one at hand, or the
whole batch. -/
def poisonMessages (cfg : SourceConfig) : List Fetched :=
  if cfg.hasBatchDeserializer then s.batch else s.batch.take 1

/-- The counters of a failure. -/
def countErrors (cfg : SourceConfig) : Source :=
  { s with
    batchDeserializeErrorCount :=
      s.batchDeserializeErrorCount + (if cfg.hasBatchDeserializer then 1 else 0)
    recordErrorCount := s.recordErrorCount + (s.poisonMessages cfg).length
    poison := Poison.observePoisonRecords cfg.poison (s.poisonMessages cfg).length s.poison }

/-- Messages are dropped: handled without having been delivered. -/
def dropMessages (cfg : SourceConfig) (messages : List Fetched) : Source :=
  messages.foldl (fun s f => s.markDelivered cfg f) s

/-- The messages at hand leave the batch as poison. -/
def takePoison (messages : List Fetched) : Source :=
  { s with
    batch := s.batch.drop messages.length
    history := { s.history with poisoned := s.history.poisoned ++ messages.map Fetched.seq } }

/-- **After the capture**, or without one: the stream drops the messages and
goes on, or it fails, with the checkpoint in its error. -/
def poisonCaptured (cfg : SourceConfig) : Source :=
  let messages := s.poisonMessages cfg
  let s := s.takePoison messages
  if cfg.poison.policy.shouldContinue then
    ({ s with
      recordDropCount := s.recordDropCount + messages.length
      history := { s.history with dropped := s.history.dropped ++ messages } }.dropMessages cfg
        messages).callCommit cfg .deliver
  else { s with cursor := s.cursor.currentCheckpoint.2 }.handleError

/-- **The deserializer failed**: under a policy that captures poison, the
capture is awaited next. -/
def deserializeFailed (cfg : SourceConfig) (stage : String) (e : Exc) : Source :=
  let s := s.countErrors cfg
  if cfg.poison.policy.capturesRecords then { s with pc := .capturing stage e }
  else s.poisonCaptured cfg

/-- The capture itself, in the configured mode. -/
def capture (cfg : SourceConfig) (retry : KafkaSink.RetryAsync DLQRecord) (stage : String)
    (e : Exc) : PoisonM PUnit :=
  if cfg.hasBatchDeserializer then
    Poison.capturePoisonBatch cfg.poison retry e s.batch stage
  else
    match s.batch with
    | [] => pure ⟨⟩
    | f :: _ => Poison.capturePoisonRecord cfg.poison retry e f stage

/-- The poison sink, about to meet the replies of a script. -/
def withScript (script : List Reply) : PoisonState :=
  { s.poison with sink := { s.poison.sink with script } }

/-- A computation of the poison controller's, meeting these replies: whether it
returns or raises, what it did stays. -/
def runPoison (script : List Reply) (m : PoisonM PUnit) : Source :=
  { s with poison := Effect.finalState m (s.withScript script) }

/-! ## Operator seeks -/

/-- The partitions have been sought: their older messages belong to before the
seek. -/
def recordSeek (targets : Finset TopicPartition) : Source :=
  { s with history := { s.history with
      seekMark := fun tp =>
        if tp ∈ targets then s.history.returned.length else s.history.seekMark tp } }

/-- **`seek_to_offsets`**, the assignment known: partitions that are not
assigned are refused, and nothing is sought then. -/
def finishSeekToOffsets (offsets : OffsetMap) : Source :=
  if Effect.raises (Operator.validateAssignedPartitions offsets.keys.toFinset) s.operator then s
  else
    let s := s.operate (offsets.entries.forM (fun e => Operator.consumerSeek e.1 e.2))
    { s with cursor := s.cursor.applyExactPositioning offsets }.recordSeek offsets.keys.toFinset

/-- `seek_with_consumer_method`, the assignment known, up to the consumer's
method. -/
def beginSeek (partitions : Option (Finset TopicPartition)) : Source :=
  match Operator.resolveSeekTargets partitions s.operator with
  | .ok targets _ => { s with calls := s.calls ++ [.seeking targets] }
  | .error _ _ => s

/-- The consumer reads these partitions on from other positions. -/
def moveConsumer (targets : Finset TopicPartition) (position : TopicPartition → ℤ) : Source :=
  { s with operator := { s.operator with consumer := { s.operator.consumer with
      position := fun tp =>
        if tp ∈ targets then position tp else s.operator.consumer.position tp } } }

/-- The consumer has sought. -/
def finishSeek (targets : Finset TopicPartition) (position : TopicPartition → ℤ) : Source :=
  { s.moveConsumer targets position with
    cursor := s.cursor.clearPositioningTargets }.recordSeek targets

/-! ## The machine -/

/-- A call of `commit_if_needed` is entered. -/
def enterCall : Source := { s with call := none }

/-- The next step of the coroutine that is running. -/
def proceed (cfg : SourceConfig) : Option Source :=
  match s.call with
  | some (caller, force) => some (s.enterCall.commitIfNeeded cfg caller force)
  | none => if s.pc = .advancing then some (s.advance cfg) else none

/-- What a session begins with: a consumer, with the partitions assigned to it
by hand if any are. -/
def openConsumer (cfg : SourceConfig) (position : TopicPartition → ℤ) : Source :=
  { s with
    operator :=
      { opened := true
        consumer := { assignment := cfg.assignments, position }
        controls :=
          if cfg.assignments = ∅ then s.operator.controls
          else { s.operator.controls with activeAssignment := cfg.assignments } }
    history := { s.history with streamed := false } }

/-- Partitions are assigned: the consumer has them when the callback runs. -/
def partitionsAssigned (ps : Finset TopicPartition) (position : TopicPartition → ℤ) : Source :=
  { s with
    operator := { s.operator with consumer := s.operator.consumer.assign ps position } }.operate
    (Operator.handlePartitionsAssigned ps)

/-- **`_committed`**, once the producer's transaction has taken the offset to
the broker. -/
def transactionCommitted (i : ℕ) (d : Delivery) : Source :=
  { s with
    deliveries := s.deliveries.set i { d with acknowledged := true }
    cursor := s.cursor.markTransactionCommitted d.message.tp d.message.offset
    history := { s.history with
      settled := s.history.settled ++ [d.message.seq]
      committed := s.history.committed ++ [(d.message.tp, d.message.offset + 1)] } }

/-- A commit call is answered and gone. -/
def dropCommit (i : ℕ) : Source := { s with commits := s.commits.eraseIdx i }

/-- An operator call goes on. -/
def dropCall (i : ℕ) : Source := { s with calls := s.calls.eraseIdx i }

/-- The sessions of the source and of its poison sink. -/
def reactSession (cfg : SourceConfig) (retry : KafkaSink.RetryAsync DLQRecord) :
    Event → Option Source
  | .openPoisonSink script =>
    if s.operator.opened || s.poison.sink.producer then none
    else cfg.poison.sink.map (fun sink =>
      s.runPoison script (Poison.onSink (KafkaSink.open sink)))
  | .closePoisonSink script =>
    if s.operator.opened then none
    else cfg.poison.sink.map (fun sink =>
      s.runPoison script (Poison.onSink (KafkaSink.close sink retry)))
  | .open position =>
    if s.operator.opened || (s.pc ≠ .idle && s.pc ≠ .ended) then none
    else some (s.openConsumer cfg position)
  | .close =>
    if s.operator.opened then some { s with call := some (.close, true) } else none
  | .prepareResume checkpoint =>
    some { s with cursor := s.cursor.prepareResume (resumedOffsets checkpoint) }
  | .checkpoint => some { s with cursor := s.cursor.currentCheckpoint.2 }
  | _ => none

/-- The stream. -/
def reactStream (cfg : SourceConfig) (retry : KafkaSink.RetryAsync DLQRecord) :
    Event → Option Source
  | .stream =>
    if s.operator.opened && (s.pc = .idle || s.pc = .ended) then some s.startStream else none
  | .probed message =>
    match s.pc with
    | .refreshing => (s.probe message).map (fun s => s.syncAssignment.applyInitialPositioning)
    | .positioning => (s.probe message).map (fun s => s.syncAssignment.seekAndStart)
    | _ => none
  | .polled records =>
    match s.pc with
    | .polling idlePolls =>
      (s.fetchAll records).map (fun (messages, s) => s.receive cfg idlePolls messages)
    | _ => none
  | .pollStopped =>
    match s.pc with
    | .polling _ => some s.finalize
    | _ => none
  | .pollFailed =>
    match s.pc with
    | .polling _ => some s.handleError
    | _ => none
  | .deserialized =>
    if s.pc = .deserializing && !cfg.hasBatchDeserializer then
      match s.batch with
      | [] => none
      | f :: rest => some (s.emitRecord f rest)
    else none
  | .deserializedBatch count =>
    if s.pc = .deserializing && cfg.hasBatchDeserializer then
      if count = s.batch.length then some { s with pc := .advancing }
      else some (s.clearActiveDelivery.deserializeFailed cfg
        "kafka_batch_deserialize_count_mismatch" (.exception "ValueError"
          "Kafka batch_deserializer returned a different number of records than input messages"))
    else none
  | .malformed e =>
    if s.pc = .deserializing && e.isException then
      some (s.deserializeFailed cfg
        (if cfg.hasBatchDeserializer then "kafka_batch_deserialize" else "kafka_deserialize") e)
    else none
  | .captured script =>
    match s.pc with
    | .capturing stage e =>
      if Effect.raises (s.capture cfg retry stage e) (s.withScript script) then
        some (s.runPoison script (s.capture cfg retry stage e)).handleError
      else some ((s.runPoison script (s.capture cfg retry stage e)).poisonCaptured cfg)
    | _ => none
  | .next =>
    match s.pc with
    | .yielded i =>
      s.deliveries[i]?.map (fun d =>
        if d.acknowledged then { s.clearActiveDelivery with pc := .advancing }
        else s.clearActiveDelivery.acknowledgeDelivery cfg i d .deliver)
    | _ => none
  | .closeStream =>
    match s.pc with
    | .yielded _ => some s.finalize
    | _ => none
  | .interrupted =>
    match s.pc with
    | .refreshing | .positioning => some { s with pc := .ended }
    | .polling _ | .deserializing | .capturing _ _ => some s.handleError
    | _ => none
  | _ => none

/-- Acknowledgements, commits and rebalances. -/
def reactCommit (cfg : SourceConfig) : Event → Option Source
  | .acknowledge i =>
    s.deliveries[i]?.map (fun d =>
      if d.acknowledged then s else s.acknowledgeDelivery cfg i d .acknowledge)
  | .transactionCommitted i => s.deliveries[i]?.map (fun d => s.transactionCommitted i d)
  | .committed i =>
    s.commits[i]?.map (fun c => ((s.dropCommit i).recordCommit c.request).commitReturns c.caller)
  | .commitFailed i => s.commits[i]?.map (fun c => (s.dropCommit i).commitRaises c.caller)
  | .assigned ps position =>
    if s.operator.opened then some (s.partitionsAssigned ps position) else none
  | .revoked ps =>
    if s.operator.opened && ps ⊆ s.operator.consumer.assignment then
      some { s with call := some (.revoked ps, true) }
    else none
  | .commitNow => if s.operator.opened then some (s.issueCommit .commitNow) else none
  | _ => none

/-- The operator's controls. -/
def reactOperator : Event → Option Source
  | .pause partitions => some (s.operate (Operator.pause partitions))
  | .resume partitions => some (s.operate (Operator.resume partitions))
  | .seekToOffsets offsets =>
    if offsets.entries = [] || !s.operator.opened then some s
    else if s.operator.consumer.assignment = ∅ then
      some { s with calls := s.calls ++ [.seekToOffsets offsets] }
    else some (s.syncAssignment.finishSeekToOffsets offsets)
  | .seekWithConsumerMethod partitions =>
    if !s.operator.opened then some s
    else if s.operator.consumer.assignment = ∅ then
      some { s with calls := s.calls ++ [.seekWithConsumerMethod partitions] }
    else some (s.syncAssignment.beginSeek partitions)
  | .operatorProbed i message =>
    match s.calls[i]? with
    | some (.seekToOffsets offsets) =>
      ((s.dropCall i).probe message).map (fun s => s.syncAssignment.finishSeekToOffsets offsets)
    | some (.seekWithConsumerMethod partitions) =>
      ((s.dropCall i).probe message).map (fun s => s.syncAssignment.beginSeek partitions)
    | _ => none
  | .seeked i position =>
    match s.calls[i]? with
    | some (.seeking targets) => some ((s.dropCall i).finishSeek targets position)
    | _ => none
  | .seekFailed i moved position =>
    match s.calls[i]? with
    | some (.seeking targets) => some ((s.dropCall i).moveConsumer (targets ∩ moved) position)
    | _ => none
  | _ => none

end Source

/-- Which of the source's parts an event concerns. -/
inductive Event.Part where
  | session
  | stream
  | commit
  | operator

def Event.part : Event → Event.Part
  | .openPoisonSink _ | .closePoisonSink _ | .open _ | .close | .prepareResume _
  | .checkpoint => .session
  | .proceed | .stream | .probed _ | .polled _ | .pollStopped | .pollFailed | .deserialized
  | .deserializedBatch _ | .malformed _ | .captured _ | .next | .closeStream
  | .interrupted => .stream
  | .acknowledge _ | .transactionCommitted _ | .committed _ | .commitFailed _ | .assigned _ _
  | .revoked _ | .commitNow => .commit
  | .pause _ | .resume _ | .seekToOffsets _ | .seekWithConsumerMethod _ | .operatorProbed _ _
  | .seeked _ _ | .seekFailed _ _ _ => .operator

namespace Source

/-- What a source at an await point does when an event happens. -/
def react (cfg : SourceConfig) (retry : KafkaSink.RetryAsync DLQRecord) (s : Source)
    (e : Event) : Option Source :=
  match e.part with
  | .session => s.reactSession cfg retry e
  | .stream => s.reactStream cfg retry e
  | .commit => s.reactCommit cfg e
  | .operator => s.reactOperator e

/-- **One step of the source.** -/
def step (cfg : SourceConfig) (retry : KafkaSink.RetryAsync DLQRecord) (s : Source)
    (e : Event) : Option Source :=
  match e with
  | .proceed => s.proceed cfg
  | e => if s.busy then none else s.react cfg retry e

end Source

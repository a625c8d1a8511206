import AgoraPlugins.Kafka.Cursor
import AgoraPlugins.Kafka.Sink

/-!
# Poison records

A message that cannot be deserialised is poison. The policy says what becomes of
it: the stream fails, or it goes on without the record, and in either case the
record may first be put on a dead letter queue. Such a put is a record of
another Kafka topic, written through `KafkaDLQSink`, which is a `KafkaSink` with
counters around it; a put that fails is counted, and ends the stream only under
the policy that fails closed.

Which puts there were is recorded beside the counters: for each message that was
captured, the delivery its put became, or that its put failed.
-/

/-- **A message as the consumer returns it**, with its key, value and
headers. -/
structure ConsumerRecord where
  tp : TopicPartition
  offset : ℤ
  key : Option Bytes := none
  value : Option Bytes := none
  headers : Headers := []
  deriving DecidableEq

/-- A message that was returned, the `seq`-th of all. -/
structure Fetched where
  record : ConsumerRecord
  seq : ℕ
  deriving DecidableEq

/-- The partition and offset of a message. -/
abbrev Fetched.tp (f : Fetched) : TopicPartition := f.record.tp

abbrev Fetched.offset (f : Fetched) : ℤ := f.record.offset

inductive KafkaPoisonRecordPolicy where
  | failClosed
  | logAndContinue
  | dlqAndContinue
  | dlqAndFailClosed
  deriving DecidableEq

namespace KafkaPoisonRecordPolicy

/-- `should_continue_after_poison_record`. -/
def shouldContinue : KafkaPoisonRecordPolicy → Bool
  | logAndContinue | dlqAndContinue => true
  | failClosed | dlqAndFailClosed => false

/-- Whether poison records go to the dead letter queue. -/
def capturesRecords : KafkaPoisonRecordPolicy → Bool
  | dlqAndContinue | dlqAndFailClosed => true
  | failClosed | logAndContinue => false

end KafkaPoisonRecordPolicy

/-- **A dead letter**: the poison message with the error it gave, and a
checkpoint that says where it stood. -/
structure DLQRecord where
  pipelineId : String
  stage : String
  errorType : String
  errorMessage : String
  record : ConsumerRecord
  checkpoint : Checkpoint
  maxAttempts : Option ℕ
  deriving DecidableEq

/-- The default policy needs no sink. -/
theorem sink_of_failClosed : KafkaPoisonRecordPolicy.failClosed.capturesRecords = true →
    (none : Option (KafkaSink.Config DLQRecord)) ≠ none := by
  intro h
  cases h

/-- The settings of poison routing. A DLQ policy comes with a sink. -/
structure PoisonConfig where
  policy : KafkaPoisonRecordPolicy := .failClosed
  pipelineId : String := "kafka:agora-consumer"
  maxAttempts : Option ℕ := none
  sink : Option (KafkaSink.Config DLQRecord) := none
  /-- `KafkaSource poison_record_policy requires poison_record_sink when using DLQ
  modes.` -/
  sink_of_captures : policy.capturesRecords = true → sink ≠ none := by
    first | exact sink_of_failClosed | decide

/-- **The poison controller's counters and its sink.** `puts` records, for each
captured message, the delivery of its put, or `none` for a put that was counted
as a failure. -/
structure PoisonState where
  dlqWriteCount : ℕ := 0
  dlqWriteFailureCount : ℕ := 0
  logOnlyCount : ℕ := 0
  failClosedCount : ℕ := 0
  writeCount : ℕ := 0
  writeBatchCount : ℕ := 0
  upsertCount : ℕ := 0
  sink : KafkaSink.State DLQRecord := {}
  puts : List (ℕ × Option ℕ) := []

abbrev PoisonM (α : Type) := EStateM Exc PoisonState α

namespace Poison

variable (cfg : PoisonConfig) (retry : KafkaSink.RetryAsync DLQRecord)

/-- A computation of the dead letter sink. -/
def onSink {α : Type} (m : KafkaSink.SinkM DLQRecord α) : PoisonM α :=
  Effect.zoom PoisonState.sink (fun s sink => { s with sink }) m

/-- `KafkaDLQSink.write`. -/
def dlqWrite (sink : KafkaSink.Config DLQRecord) (record : DLQRecord) : PoisonM PUnit := do
  onSink (KafkaSink.write sink retry record)
  modify (fun s => { s with writeCount := s.writeCount + 1, upsertCount := s.upsertCount + 1 })

/-- `KafkaDLQSink.write_batch`. -/
def dlqWriteBatch (sink : KafkaSink.Config DLQRecord) (records : List DLQRecord) :
    PoisonM PUnit := do
  if records = [] then pure ⟨⟩
  else do
    onSink (KafkaSink.writeBatch sink retry records)
    modify (fun s => { s with
      writeBatchCount := s.writeBatchCount + 1
      upsertCount := s.upsertCount + records.length })

/-- The type and text of what a deserializer raised. -/
def errorParts : Exc → String × String
  | .exception type message => (type, message)
  | .cancelled => ("CancelledError", "")

def buildPoisonDlqRecord (e : Exc) (record : ConsumerRecord) (stage : String) : DLQRecord :=
  let entry : CheckpointEntry := ⟨record.tp.topic, record.tp.partition, record.offset⟩
  { pipelineId := cfg.pipelineId
    stage
    errorType := (errorParts e).1
    errorMessage := (errorParts e).2
    record
    checkpoint := ⟨entry, [entry]⟩
    maxAttempts := cfg.maxAttempts }

/-- The counters of `observe_poison_records`. -/
def observePoisonRecords (count : ℕ) (s : PoisonState) : PoisonState :=
  match cfg.policy with
  | .logAndContinue => { s with logOnlyCount := s.logOnlyCount + count }
  | .failClosed | .dlqAndFailClosed => { s with failClosedCount := s.failClosedCount + count }
  | .dlqAndContinue => s

/-- A put that failed is counted, and raised under the policy that fails
closed. -/
def handlePoisonDlqWriteError (e : Exc) (messages : List Fetched) : PoisonM PUnit := do
  modify (fun s => { s with
    dlqWriteFailureCount := s.dlqWriteFailureCount + messages.length
    puts := s.puts ++ messages.map (fun f => (f.seq, none)) })
  if cfg.policy = .dlqAndFailClosed then throw e else pure ⟨⟩

/-- **Puts the messages on the queue** by `write`, from the delivery `first` on:
counted one way or the other. -/
def capture (write : PoisonM PUnit) (messages : List Fetched) : PoisonM PUnit := do
  let first := (← get).sink.nextDelivery
  let written ← tryCatch
    (do
      write
      pure true)
    (fun e =>
      if e.isException then do
        handlePoisonDlqWriteError cfg e messages
        pure false
      else throw e)
  if written then
    modify (fun s => { s with
      dlqWriteCount := s.dlqWriteCount + messages.length
      puts := s.puts ++ (messages.zipIdx first).map (fun (f, id) => (f.seq, some id)) })
  else pure ⟨⟩

/-- `capture_poison_record`. -/
def capturePoisonRecord (e : Exc) (message : Fetched) (stage : String) : PoisonM PUnit :=
  if cfg.policy.capturesRecords then
    match cfg.sink with
    | none => pure ⟨⟩
    | some sink =>
      capture cfg (dlqWrite retry sink (buildPoisonDlqRecord cfg e message.record stage))
        [message]
  else pure ⟨⟩

/-- `capture_poison_batch`. -/
def capturePoisonBatch (e : Exc) (messages : List Fetched) (stage : String) :
    PoisonM PUnit :=
  if cfg.policy.capturesRecords then
    match cfg.sink with
    | none => pure ⟨⟩
    | some sink =>
      capture cfg
        (dlqWriteBatch retry sink
          (messages.map (fun f => buildPoisonDlqRecord cfg e f.record stage)))
        messages
  else pure ⟨⟩

end Poison

import AgoraPlugins.Kafka.Source

/-!
# Delivering a record

`KafkaSourceRuntime.deliver` takes a record the source has just handed out,
gives it to a sink, and acknowledges it: either by the source's own hook, after
the sink has been flushed, or – with `transactional_offsets` – by sending its
offset to the broker in the transaction the sink writes in.

The runtime takes any sink. `SinkMethods` are what it calls; two of them it
looks for and does without, or refuses the sink when they are asked for.
-/

open Effect

/-- The methods of a sink that writes in Kafka transactions. -/
structure TransactionMethods (σ : Type) where
  beginTransaction : EStateM Exc σ PUnit
  sendOffsetsToTransaction : OffsetMap → String → EStateM Exc σ PUnit
  commitTransaction : EStateM Exc σ PUnit
  abortTransaction : EStateM Exc σ PUnit

/-- **What a runtime calls of a sink** that takes records of `U` and has states
of `σ`. -/
structure SinkMethods (σ U : Type) where
  write : U → EStateM Exc σ PUnit
  flush : EStateM Exc σ PUnit
  waitForPendingAcks : Option (EStateM Exc σ PUnit) := none
  transactions : Option (TransactionMethods σ) := none

/-- **The settings of a runtime**: the source's and the sink it delivers to.
`transform` is the caller's and `decorate` puts the delivery metadata in. -/
structure KafkaSourceRuntime (σ T U : Type) where
  source : SourceConfig
  groupId : String
  sink : SinkMethods σ U
  transform : T → Except Exc U
  decorate : U → Except Exc U

/-- **A source and a sink while a record is delivered.** `active` is the
delivery the source has handed out, and `acknowledged` the flag its hooks share.
The script has the broker's answers to commits, and `commits` those it has
accepted. -/
structure Delivering (σ : Type) where
  sink : σ
  cursor : CursorState := {}
  active : Option (TopicPartition × ℤ) := none
  acknowledged : Bool := false
  consumer : Bool := true
  script : List Reply := []
  commits : List CommitRequest := []

/-- The computations of a runtime. -/
abbrev DeliveryM (σ β : Type) := EStateM Exc (Delivering σ) β

namespace KafkaSourceRuntime

variable {σ T U β : Type}

/-- A computation of the sink. -/
def onSink (m : EStateM Exc σ β) : DeliveryM σ β :=
  zoom Delivering.sink (fun s sink => { s with sink }) m

variable (rt : KafkaSourceRuntime σ T U)

/-! ## Acknowledging -/

/-- The broker's answer to a commit. -/
def awaitCommit : DeliveryM σ PUnit :=
  zoom Delivering.script (fun s script => { s with script }) nextReply

/-- `commit_if_needed`, as the hooks of a delivery call it. -/
def commitIfNeeded : DeliveryM σ PUnit := do
  let s ← get
  if s.consumer && !rt.source.enableAutoCommit && 0 < s.cursor.pendingCommitCount
      && rt.source.commitEvery ≤ s.cursor.pendingCommitCount then do
    awaitCommit
    modify (fun s => { s with
      cursor := s.cursor.clearPendingCommitCount
      commits := s.commits ++ [CommitRequest.of s.cursor.buildCommitOffsets] })
  else pure ⟨⟩

/-- **The hook that acknowledges** a delivery, the first time it is called. -/
def ack (delivery : TopicPartition × ℤ) : DeliveryM σ PUnit := do
  if (← get).acknowledged then pure ⟨⟩
  else do
    modify (fun s => { s with
      acknowledged := true
      cursor := s.cursor.markDeliveredMessage delivery.1 delivery.2
        rt.source.enableAutoCommit })
    if rt.source.enableAutoCommit then pure ⟨⟩ else rt.commitIfNeeded

/-- The offset a transaction commits for a delivery: the one after it. -/
def transactionOffsets (delivery : TopicPartition × ℤ) : OffsetMap :=
  AList.singleton delivery.1 (delivery.2 + 1)

/-- **The hook that follows a committed transaction.** Nothing is awaited. -/
def committed (delivery : TopicPartition × ℤ) : DeliveryM σ PUnit :=
  modify (fun s => { s with
    acknowledged := true
    cursor := s.cursor.markTransactionCommitted delivery.1 delivery.2 })

/-! ## Delivering -/

/-- The sink is flushed, or what it has sent is waited for where it can be. -/
def settleSink (flush : Bool) : DeliveryM σ PUnit :=
  if flush then onSink rt.sink.flush
  else
    match rt.sink.waitForPendingAcks with
    | some waitForPendingAcks => onSink waitForPendingAcks
    | none => pure ⟨⟩

def flushIf (flush : Bool) : DeliveryM σ PUnit :=
  if flush then onSink rt.sink.flush else pure ⟨⟩

/-- The body of the `try`, up to the commit. -/
def transactionBody (transactions : TransactionMethods σ) (outbound : U)
    (delivery : TopicPartition × ℤ) (flush : Bool) : DeliveryM σ PUnit := do
  onSink (rt.sink.write outbound)
  rt.flushIf flush
  onSink (transactions.sendOffsetsToTransaction (transactionOffsets delivery) rt.groupId)
  onSink transactions.commitTransaction

/-- Its handler, which aborts for an exception only. -/
def abortOnException (transactions : TransactionMethods σ) (e : Exc) : DeliveryM σ PUnit :=
  if e.isException then do
    onSink transactions.abortTransaction
    throw e
  else throw e

def deliverWithTransactionalOffsets (outbound : U) (delivery : TopicPartition × ℤ)
    (flush : Bool) : DeliveryM σ U :=
  match rt.sink.transactions with
  | none => throw (.exception "TypeError"
      "transactional_offsets=True requires a sink with Kafka transaction methods.")
  | some transactions => do
    onSink transactions.beginTransaction
    tryCatch (rt.transactionBody transactions outbound delivery flush)
      (abortOnException transactions)
    committed delivery
    pure outbound

/-- What the sink is to be given for a record. -/
def outbound (record : T) : Except Exc U :=
  rt.transform record >>= rt.decorate

/-- The text of the error when no delivery is active. -/
def noActiveDelivery : String :=
  "KafkaSourceRuntime.deliver() requires an active delivery success callback. "
    ++ "Consume the record from KafkaSource.stream() immediately before calling "
    ++ "deliver(), or use drain_to()."

/-- **`deliver`.** -/
def deliver (flush transactionalOffsets : Bool) (record : T) : DeliveryM σ U := do
  match rt.outbound record with
  | .error e => throw e
  | .ok outbound =>
    match (← get).active with
    | none => throw (.exception "RuntimeError" noActiveDelivery)
    | some delivery =>
      if transactionalOffsets then rt.deliverWithTransactionalOffsets outbound delivery flush
      else do
        onSink (rt.sink.write outbound)
        rt.settleSink flush
        rt.ack delivery
        pure outbound

/-! ## What an acknowledgement does -/

/-- **An acknowledgement leaves the sink alone**, and its flag is set even if
the commit that may follow raises. It returns if the broker answers. -/
theorem ensures_ack (delivery : TopicPartition × ℤ) (s : Delivering σ) :
    Ensures (rt.ack delivery) s (fun r t => t.sink = s.sink ∧ t.acknowledged = true
      ∧ (s.script = [] → r = .ok ⟨⟩)) := by
  unfold ack
  rw [ensures_bind, ensures_get]
  show Ensures (if s.acknowledged = true then _ else _) s _
  split
  · rename_i hacked
    exact ⟨rfl, hacked, fun _ => rfl⟩
  · rw [ensures_bind, ensures_modify]
    dsimp only
    split
    · exact ⟨rfl, rfl, fun _ => rfl⟩
    · unfold commitIfNeeded
      rw [ensures_bind, ensures_get]
      dsimp only
      split
      · unfold awaitCommit
        rw [ensures_bind, ensures_zoom]
        cases hs : s.script with
        | nil => exact ⟨rfl, rfl, fun _ => rfl⟩
        | cons reply script =>
          exact ensures_nextReply (fun _ => ⟨rfl, rfl, nofun⟩) (fun _ _ => ⟨rfl, rfl, nofun⟩)
      · exact ⟨rfl, rfl, fun _ => rfl⟩

end KafkaSourceRuntime

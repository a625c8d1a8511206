import AgoraPlugins.Effect
import AgoraPlugins.Machine
import AgoraPlugins.Kafka.Message

/-!
# The Kafka sink

`KafkaSink` hands records to an asynchronous producer. A send returns as soon
as the record is in the producer's buffer; the broker's answer arrives later,
through a delivery future the sink keeps in `_pending_acks`. It waits for one
of them when there are `max_pending_acks`, for all of them in `flush` and
before a commit.

Every method is a computation that keeps its state when it raises (`SinkM`).
What the world does is read from the state as well: each point where the source
awaits something, or calls back into user code, takes the next entry of
`script`. A script is the pattern of failures of one call, and a script that has
run out means that nothing fails any more.

The producer is abstracted to what transactions are about. A send carries the
transaction that is open when it is made, and a transaction is committed or it
is not. `retry_async` and the retry policy come from the pipeline library and
are parameters: `RetryAsync` says what the sink relies on.
-/

namespace KafkaSink

variable {α β : Type}

/-- **A delivery future** the sink waits on: which one it is, and the record and
message to send again should the broker refuse them. -/
structure Delivery (α : Type) where
  id : ℕ
  record : α
  message : ResolvedKafkaSinkMessage
  deriving DecidableEq

/-- A record in the producer's hands, with the transaction it was sent in. -/
structure Send (α : Type) where
  record : α
  message : ResolvedKafkaSinkMessage
  transaction : Option ℕ
  deriving DecidableEq

/-- **What the producer has done**: the sends in order, and its transactions,
numbered as they were begun. -/
structure Broker (α : Type) where
  sends : List (Send α) := []
  openTransaction : Option ℕ := none
  nextTransaction : ℕ := 0
  committed : List ℕ := []
  deriving DecidableEq

/-- **The state of a sink.** The first group are the fields of the object;
`producer` and `serializerOpen` say whether those are there. The second group
is the world: the rest of the script and the producer. The last group only
records: which deliveries have been made, which the broker confirmed, which
were awaited in vain, and which were dropped without being awaited. -/
structure State (α : Type) where
  producer : Bool := false
  serializerOpen : Bool := false
  inTransaction : Bool := false
  pendingAcks : List (Delivery α) := []
  script : List Reply := []
  broker : Broker α := {}
  nextDelivery : ℕ := 0
  confirmed : List ℕ := []
  failed : List ℕ := []
  discarded : List ℕ := []
  deriving DecidableEq

/-- The computations of a sink. -/
abbrev SinkM (α β : Type) := EStateM Exc (State α) β

/-- The default of `max_pending_acks` is accepted. -/
theorem one_le_maxPendingAcks : 1 ≤ 100 := by decide

/-- **The settings of a sink**, with what its constructor refuses to do
without. -/
structure Config (α : Type) where
  routing : Routing α
  maxPendingAcks : ℕ := 100
  transactionalId : Option String := none
  transactionPerBatch : Bool := false
  /-- `RetryPolicy.should_retry(exc, attempt)`. -/
  shouldRetry : Exc → ℕ → Bool
  /-- `max_pending_acks must be >= 1` -/
  maxPendingAcks_pos : 1 ≤ maxPendingAcks := by exact one_le_maxPendingAcks
  /-- `KafkaSink transactional_id must be non-empty when provided.` -/
  transactionalId_ne : transactionalId ≠ some "" := by decide
  /-- `KafkaSink transaction_per_batch=True requires transactional_id.` -/
  transactional : transactionPerBatch = true → transactionalId ≠ none := by decide

/-- **The retry helper**: whatever it is handed is attempted, an exception may
lead to another attempt, a cancellation never does, and the helper may be
cancelled itself while it backs off. -/
structure RetryAsync (α : Type) where
  run : {β : Type} → SinkM α β → SinkM α β
  attempts : ∀ {β : Type} (m : SinkM α β) (s : State α),
    Effect.Attempts (fun e : Exc => e.isException = true) Exc.cancelled m s (run m s)

/-- A retry helper that makes `n + 1` attempts. -/
def RetryAsync.upTo (α : Type) (n : ℕ) : RetryAsync α where
  run m := Effect.upTo Exc.isException m n
  attempts m s := Effect.upTo_attempts Exc.isException Exc.cancelled m n s

/-! ## Awaiting -/

/-- **An await point, or a callback of the user's**: it takes the next reply of
the script. -/
def await : SinkM α PUnit := do
  match (← get).script with
  | [] => pure ⟨⟩
  | .ok :: script => modify (fun s => { s with script })
  | .raises e :: script => do
    modify (fun s => { s with script })
    throw e

/-- **The await rule.** Whatever the reply, an await point only consumes it. -/
theorem ensures_await {s : State α} {Q : Except Exc PUnit → State α → Prop}
    (hok : ∀ script, Q (.ok ⟨⟩) { s with script := script })
    (herror : ∀ e script, Q (.error e) { s with script := script }) :
    Effect.Ensures await s Q := by
  unfold await
  rw [Effect.ensures_bind, Effect.ensures_get]
  show Effect.Ensures (match s.script with
    | [] => pure ⟨⟩
    | .ok :: script => modify (fun s => { s with script })
    | .raises e :: script => do
      modify (fun s => { s with script })
      throw e) s Q
  match hs : s.script with
  | [] =>
    have hsame : s = { s with script := [] } := by rw [← hs]
    rw [Effect.ensures_pure, hsame]
    exact hok []
  | .ok :: script => exact hok script
  | .raises e :: script => exact herror e script

def requireProducer : SinkM α PUnit := do
  if (← get).producer then pure ⟨⟩
  else throw (.exception "RuntimeError" "KafkaSink.open() was not called")

theorem ensures_requireProducer {s : State α} {Q : Except Exc PUnit → State α → Prop}
    (hok : s.producer = true → Q (.ok ⟨⟩) s) (herror : ∀ e, Q (.error e) s) :
    Effect.Ensures requireProducer s Q := by
  unfold requireProducer
  rw [Effect.ensures_bind, Effect.ensures_get]
  show Effect.Ensures (if s.producer = true then _ else _) s Q
  by_cases hp : s.producer = true
  · rw [if_pos hp]
    exact hok hp
  · rw [if_neg hp]
    exact herror _

/-! ## Sending and confirming -/

/-- One `producer.send`. The span around it measures the value first, so a
message without one raises here. -/
def issueSend (record : α) (message : ResolvedKafkaSinkMessage) : SinkM α PUnit := do
  match message.value with
  | none => throw (.exception "TypeError" "object of type 'NoneType' has no len()")
  | some _ =>
    await
    modify (fun s => { s with broker := { s.broker with
      sends := s.broker.sends ++ [⟨record, message, s.broker.openTransaction⟩] } })

variable (cfg : Config α) (retry : RetryAsync α)

/-- A send, retried until the producer takes it, and the delivery to wait
for. -/
def sendWithRetry (record : α) (message : ResolvedKafkaSinkMessage) :
    SinkM α (Delivery α) := do
  requireProducer
  retry.run (issueSend record message)
  let s ← get
  modify (fun s => { s with nextDelivery := s.nextDelivery + 1 })
  pure ⟨s.nextDelivery, record, message⟩

/-- The broker's answer to a delivery. -/
def awaitDelivery (id : ℕ) : SinkM α PUnit := do
  await
  modify (fun s => { s with confirmed := s.confirmed ++ [id] })

/-- Sends a message again and waits for that delivery. -/
def sendAndConfirm (delivery : Delivery α) : SinkM α PUnit := do
  issueSend delivery.record delivery.message
  awaitDelivery delivery.id

/-- What follows a refusal: an answer the policy finds worth retrying is sent
again, any other is raised. -/
def confirmAgain (delivery : Delivery α) (e : Exc) : SinkM α PUnit :=
  if e.isException && cfg.shouldRetry e 1 then retry.run (sendAndConfirm delivery)
  else throw e

/-- Records a delivery as awaited in vain; the exception itself passes on. -/
def recordFailure (delivery : Delivery α) (e : Exc) : SinkM α PUnit := do
  modify (fun s => { s with failed := s.failed ++ [delivery.id] })
  throw e

/-- **Awaiting a delivery confirmation.** -/
def confirm (delivery : Delivery α) : SinkM α PUnit :=
  tryCatch (tryCatch (awaitDelivery delivery.id) (confirmAgain cfg retry delivery))
    (recordFailure delivery)

def awaitOldestAck : SinkM α PUnit := do
  match (← get).pendingAcks with
  | [] => pure ⟨⟩
  | delivery :: pendingAcks => do
    -- the delivery leaves the queue before it is awaited
    modify (fun s => { s with pendingAcks })
    confirm cfg retry delivery

theorem ensures_awaitOldestAck_nil {s : State α} {Q : Except Exc PUnit → State α → Prop}
    (hs : s.pendingAcks = []) :
    Effect.Ensures (awaitOldestAck cfg retry) s Q ↔ Q (.ok ⟨⟩) s := by
  unfold awaitOldestAck
  rw [Effect.ensures_bind, Effect.ensures_get]
  simp only [hs, Effect.ensures_pure]

theorem ensures_awaitOldestAck_cons {s : State α} {Q : Except Exc PUnit → State α → Prop}
    {delivery : Delivery α} {pendingAcks : List (Delivery α)}
    (hs : s.pendingAcks = delivery :: pendingAcks) :
    Effect.Ensures (awaitOldestAck cfg retry) s Q ↔
      Effect.Ensures (confirm cfg retry delivery) { s with pendingAcks := pendingAcks } Q := by
  unfold awaitOldestAck
  rw [Effect.ensures_bind, Effect.ensures_get]
  simp only [hs, Effect.ensures_bind, Effect.ensures_modify]

/-- The loop of `_drain_pending_acks`, for at most `n` deliveries. -/
def drainLoop : ℕ → SinkM α PUnit
  | 0 => pure ⟨⟩
  | n + 1 => do
    if (← get).pendingAcks = [] then pure ⟨⟩
    else do
      awaitOldestAck cfg retry
      drainLoop n

/-- Waits for every pending delivery. Nothing joins the queue meanwhile, so its
length bounds the loop. -/
def drainPendingAcks : SinkM α PUnit := do
  drainLoop cfg retry (← get).pendingAcks.length

/-- Queues a delivery, waiting for the oldest when the queue is full. -/
def park (delivery : Delivery α) : SinkM α PUnit := do
  modify (fun s => { s with pendingAcks := s.pendingAcks ++ [delivery] })
  if cfg.maxPendingAcks ≤ (← get).pendingAcks.length then awaitOldestAck cfg retry
  else pure ⟨⟩

def enqueueSend (record : α) : SinkM α PUnit := do
  requireProducer
  await -- `message_fn`, the serializer and the routing callbacks
  let delivery ← sendWithRetry retry record (cfg.routing.publishMessageFor record)
  park cfg retry delivery

/-! ## Transactions -/

def beginTransaction : SinkM α PUnit := do
  requireProducer
  await
  modify (fun s => { s with
    broker := { s.broker with
      openTransaction := some s.broker.nextTransaction
      nextTransaction := s.broker.nextTransaction + 1 }
    inTransaction := true })

/-- Waits for the pending deliveries, then commits. Either may raise, and then
the sink is still in the transaction. -/
def commitTransaction : SinkM α PUnit := do
  requireProducer
  drainPendingAcks cfg retry
  await
  modify (fun s => { s with
    broker := { s.broker with
      openTransaction := none
      committed := s.broker.committed ++ s.broker.openTransaction.toList }
    inTransaction := false })

/-- Drops the queue. -/
def clearPendingAcks : SinkM α PUnit :=
  modify (fun s => { s with
    pendingAcks := []
    discarded := s.discarded ++ s.pendingAcks.map Delivery.id })

def abortTransaction : SinkM α PUnit := do
  requireProducer
  clearPendingAcks
  await
  modify (fun s => { s with
    broker := { s.broker with openTransaction := none }
    inTransaction := false })

/-- **The transaction context manager.** An exception of the body aborts; the
commit stands in the `else` of the handler, so what it raises aborts nothing. -/
def transaction (body : SinkM α PUnit) : SinkM α PUnit := do
  beginTransaction
  tryCatch body (fun e =>
    if e.isException then do
      abortTransaction
      throw e
    else throw e)
  commitTransaction cfg retry

/-! ## The sink's methods -/

def write (record : α) : SinkM α PUnit := do
  if (← get).producer then enqueueSend cfg retry record
  else throw (.exception "RuntimeError" "KafkaSink.open() was not called")

/-- One record of a batch whose values are serialised already. -/
def enqueueSerialized (record : α) : SinkM α PUnit := do
  await -- the routing callbacks
  let delivery ← sendWithRetry retry record (cfg.routing.batchMessageFor record)
  park cfg retry delivery

/-- Without a `message_fn` the entire batch is serialised before anything is
sent. -/
def writeBatchUnwrapped (records : List α) : SinkM α PUnit :=
  if cfg.routing.messageFn.isSome then records.forM (enqueueSend cfg retry)
  else do
    records.forM (fun _ => await) -- the serializer
    records.forM (enqueueSerialized cfg retry)

/-- **A batch of records**, in a transaction of its own when the sink is set up
so and is not in one. -/
def writeBatch (records : List α) : SinkM α PUnit := do
  requireProducer
  if cfg.transactionPerBatch && !(← get).inTransaction then
    transaction cfg retry (writeBatchUnwrapped cfg retry records)
  else writeBatchUnwrapped cfg retry records

/-- Waits for every pending delivery, then flushes the producer. -/
def flush : SinkM α PUnit := do
  if (← get).producer then do
    drainPendingAcks cfg retry
    retry.run await
  else pure ⟨⟩

/-- The `open` or `close` hook of the `message_fn`, if there is one. -/
def callMessageFnHook : SinkM α PUnit :=
  if cfg.routing.messageFn.isSome then await else pure ⟨⟩

def openSerializer : SinkM α PUnit := do
  await
  modify (fun s => { s with serializerOpen := true })
  callMessageFnHook cfg

def closeSerializer : SinkM α PUnit := do
  if (← get).serializerOpen then do
    callMessageFnHook cfg
    await
    modify (fun s => { s with serializerOpen := false })
  else pure ⟨⟩

/-- Stops the producer of an `open` that failed, if it got that far; an
exception of this clean-up is logged and forgotten. -/
def stopFailedProducer (producer : Bool) : SinkM α PUnit :=
  if producer then
    tryCatch await (fun e => if e.isException then pure ⟨⟩ else throw e)
  else pure ⟨⟩

/-- A new producer, with no transaction open. -/
def «open» : SinkM α PUnit :=
  tryCatch
    (do
      openSerializer cfg
      modify (fun s => { s with
        producer := true
        broker := { s.broker with openTransaction := none } })
      await)
    (fun e =>
      if e.isException then do
        let s ← get
        modify (fun s => { s with producer := false })
        stopFailedProducer s.producer
        closeSerializer cfg
        throw e
      else throw e)

/-- Stops the producer; the queue is dropped whichever way that goes. -/
def stopProducer : SinkM α PUnit := do
  modify (fun s => { s with producer := false })
  Effect.ensuring await clearPendingAcks

/-- Aborts the transaction the sink is in, or flushes, and then stops the
producer. -/
def close : SinkM α PUnit :=
  Effect.ensuring
    (do
      if (← get).producer then
        Effect.ensuring
          (do if (← get).inTransaction then abortTransaction else flush cfg retry)
          stopProducer
      else pure ⟨⟩)
    (closeSerializer cfg)

/-! ## Runs of calls -/

/-- A method a pipeline calls. -/
inductive Method (α : Type) where
  | «open»
  | write (record : α)
  | writeBatch (records : List α)
  | flush
  | close
  deriving DecidableEq

/-- Whether the method is `open`. -/
def Method.isOpen : Method α → Bool
  | .open => true
  | _ => false

/-- A call, with the replies it will meet. -/
structure Call (α : Type) where
  method : Method α
  script : List Reply := []
  deriving DecidableEq

/-- **A sink between two calls**: its state, and how the last call ended. Of
the deliveries, `accepted` has those made by a call that returned, and
`surfaced` those awaited in vain, or discarded, in a call that raised or in a
`close`. -/
structure Session (α : Type) where
  sink : State α := {}
  raised : Option Exc := none
  accepted : List ℕ := []
  surfaced : List ℕ := []
  deriving DecidableEq

/-- The computation of a method. -/
def Method.run : Method α → SinkM α PUnit
  | .open => KafkaSink.open cfg
  | .write record => KafkaSink.write cfg retry record
  | .writeBatch records => KafkaSink.writeBatch cfg retry records
  | .flush => KafkaSink.flush cfg retry
  | .close => KafkaSink.close cfg retry

/-- The session after a call that left `t`. -/
def Session.returned (s : Session α) (method : Method α) (t : State α) : Session α :=
  { sink := t
    raised := none
    accepted := s.accepted
      ++ List.range' s.sink.nextDelivery (t.nextDelivery - s.sink.nextDelivery)
    surfaced :=
      match method with
      | .close => t.failed ++ t.discarded
      | _ => s.surfaced }

/-- The session after a call that raised `e` and left `t`. -/
def Session.failed (s : Session α) (e : Exc) (t : State α) : Session α :=
  { sink := t
    raised := some e
    accepted := s.accepted
    surfaced := t.failed ++ t.discarded }

/-- **One call.** A pipeline opens a sink that is not open. -/
def step (s : Session α) (call : Call α) : Option (Session α) :=
  if call.method.isOpen && s.sink.producer then none
  else
    match call.method.run cfg retry { s.sink with script := call.script } with
    | .ok _ t => some (s.returned call.method t)
    | .error e t => some (s.failed e t)

/-- **What a call is**: its method, run from the sink it finds with the replies
it meets, either returned or raised. -/
theorem step_cases {s t : Session α} {call : Call α} (h : step cfg retry s call = some t) :
    (∃ u, call.method.run cfg retry { s.sink with script := call.script } = .ok ⟨⟩ u
      ∧ t = s.returned call.method u)
    ∨ (∃ e u, call.method.run cfg retry { s.sink with script := call.script } = .error e u
      ∧ t = s.failed e u) := by
  unfold step at h
  split at h
  · cases h
  · cases hr : call.method.run cfg retry { s.sink with script := call.script } with
    | ok _ u =>
      rw [hr] at h
      exact .inl ⟨u, rfl, (Option.some.inj h).symm⟩
    | error e u =>
      rw [hr] at h
      exact .inr ⟨e, u, rfl, (Option.some.inj h).symm⟩

/-- A call that did not raise returned. -/
theorem step_returned {s t : Session α} {call : Call α} (h : step cfg retry s call = some t)
    (hr : t.raised = none) :
    call.method.run cfg retry { s.sink with script := call.script } = .ok ⟨⟩ t.sink := by
  obtain ⟨u, hu, rfl⟩ | ⟨e, u, hu, rfl⟩ := step_cases cfg retry h
  · exact hu
  · cases hr

/-- What every method keeps, every call keeps. -/
theorem step_keeps {I : State α → Prop}
    (hscript : ∀ s script, I s → I { s with script := script })
    (hrun : ∀ method : Method α, Effect.Respects (Effect.Keeps I) (method.run cfg retry))
    {s t : Session α} {call : Call α} (hs : I s.sink) (h : step cfg retry s call = some t) :
    I t.sink := by
  have hi := hscript s.sink call.script hs
  obtain ⟨u, hu, rfl⟩ | ⟨e, u, hu, rfl⟩ := step_cases cfg retry h
  · exact (hrun call.method _).of_ok hu hi
  · exact (hrun call.method _).of_error hu hi

end KafkaSink

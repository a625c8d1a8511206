import AgoraPlugins.Kafka.Runtime
import AgoraPlugins.Kafka.SinkTransactions
import Mathlib.Order.SymmDiff

/-!
# Delivering in a transaction

With `transactional_offsets` a record and the offset it came from are to be
committed in one transaction, or neither is. Three things must agree when
`deliver` exits: the producer's transaction, the sink's `_in_transaction` and
the source's committable offsets.

The handler that aborts is an `except Exception`, and it awaits the abort. So
they agree in exactly the calls in which no cancellation arrives between the
begin and the end of the commit, and no abort raises; and, when the begin itself
raises or is not reached, in those that find the sink in no transaction.
-/

open Effect

/-- Offsets sent to a transaction. -/
structure SentOffsets where
  offsets : OffsetMap
  groupId : String
  transaction : Option ℕ

/-- **A Kafka sink, with the offsets its producer has sent** to transactions. -/
structure TransactionalSink (α : Type) where
  kafka : KafkaSink.State α := {}
  offsets : List SentOffsets := []

namespace TransactionalSink

variable {α β : Type}

/-- A computation of the sink proper. -/
def onKafka (m : KafkaSink.SinkM α β) : EStateM Exc (TransactionalSink α) β :=
  zoom TransactionalSink.kafka (fun s kafka => { s with kafka }) m

def sendOffsetsToTransaction (offsets : OffsetMap) (groupId : String) :
    EStateM Exc (TransactionalSink α) PUnit := do
  onKafka KafkaSink.requireProducer
  onKafka KafkaSink.await
  modify (fun s => { s with
    offsets := s.offsets ++ [⟨offsets, groupId, s.kafka.broker.openTransaction⟩] })

variable (cfg : KafkaSink.Config α) (retry : KafkaSink.RetryAsync α)

/-- What the runtime finds when it looks for the transaction methods. -/
def transactionMethods : TransactionMethods (TransactionalSink α) where
  beginTransaction := onKafka KafkaSink.beginTransaction
  sendOffsetsToTransaction := sendOffsetsToTransaction
  commitTransaction := onKafka (KafkaSink.commitTransaction cfg retry)
  abortTransaction := onKafka KafkaSink.abortTransaction

/-- **A Kafka sink as a runtime sees it.** -/
def sinkMethods : SinkMethods (TransactionalSink α) α where
  write record := onKafka (KafkaSink.write cfg retry record)
  flush := onKafka (KafkaSink.flush cfg retry)
  waitForPendingAcks := some (onKafka (KafkaSink.drainPendingAcks cfg retry))
  transactions := some (transactionMethods cfg retry)

end TransactionalSink

/-! ## The parts of a transaction, exit by exit -/

namespace KafkaSink

variable {α : Type} (cfg : Config α) (retry : RetryAsync α)

theorem sends_write (record : α) : Sends [record] (write cfg retry record) := by
  unfold write
  refine sends_get.after (fun s => ?_)
  cases s.producer with
  | true => exact sends_enqueueSend cfg retry record
  | false => exact fun _ => Extends.of_broker rfl rfl

theorem sends_flush : Sends [] (flush cfg retry) := by
  unfold flush
  refine sends_get.after (fun s => ?_)
  cases s.producer with
  | true =>
    exact (sends_drainPendingAcks cfg retry).after (fun _ => sends_await.retried retry)
  | false => exact sends_pure _

/-- The transaction that is open has been committed, and the sink is in none. -/
structure Closes (s t : State α) : Prop where
  committed : Committed s t
  openTransaction : t.broker.openTransaction = none
  inTransaction : t.inTransaction = false

/-- A commit that raises leaves the transaction as it was. -/
theorem exits_commitTransaction_closes :
    Exits Closes (Extends []) (commitTransaction cfg retry) := by
  intro s
  unfold commitTransaction
  rw [ensures_bind]
  refine ensures_requireProducer (fun _ => ?_) (fun _ => .of_broker rfl rfl)
  refine (sends_drainPendingAcks cfg retry s).bind (fun _ t hst => ?_) (fun _ _ hst => hst)
  rw [ensures_bind]
  refine ensures_await (fun script => ?_) (fun _ script => ?_)
  · obtain ⟨new, hs, _, ht⟩ := hst.sends
    refine ⟨⟨?_, new, hs, ht⟩, rfl, rfl⟩
    show t.broker.committed ++ t.broker.openTransaction.toList = _
    rw [hst.committed, hst.openTransaction]
  · exact hst.trans (.of_broker rfl rfl)

/-- A transaction has begun, and nothing else has happened. -/
structure Begins (s t : State α) : Prop where
  begun : Begun s t
  committed : t.broker.committed = s.broker.committed
  inTransaction : t.inTransaction = true

/-- Nothing about transactions has changed, and nothing was sent. -/
structure Untouched (s t : State α) : Prop where
  broker : t.broker = s.broker
  inTransaction : t.inTransaction = s.inTransaction

/-- A begin that raises has begun nothing. -/
theorem exits_beginTransaction_begins :
    Exits Begins Untouched (beginTransaction : SinkM α PUnit) := by
  intro s
  unfold beginTransaction
  rw [ensures_bind]
  refine ensures_requireProducer (fun _ => ?_) (fun _ => ⟨rfl, rfl⟩)
  rw [ensures_bind]
  refine ensures_await (fun script => ?_) (fun _ _ => ⟨rfl, rfl⟩)
  exact ⟨⟨rfl, rfl⟩, rfl, rfl⟩

/-- **An abort**: what was open no longer is, and nothing has been committed. -/
structure Aborts (s t : State α) : Prop where
  committed : t.broker.committed = s.broker.committed
  sends : t.broker.sends = s.broker.sends
  openTransaction : t.broker.openTransaction = none
  inTransaction : t.inTransaction = false

/-- An abort that raises has dropped the queue and nothing else. -/
theorem exits_abortTransaction :
    Exits Aborts (Extends []) (abortTransaction : SinkM α PUnit) := by
  intro s
  unfold abortTransaction
  rw [ensures_bind]
  refine ensures_requireProducer (fun _ => ?_) (fun _ => .of_broker rfl rfl)
  unfold clearPendingAcks
  rw [ensures_bind, ensures_modify, ensures_bind]
  exact ensures_await (fun script => ⟨rfl, rfl, rfl, rfl⟩) (fun _ _ => .of_broker rfl rfl)

end KafkaSink

/-! ## The outcomes of a delivery -/

namespace TransactionalSink

open KafkaSink KafkaSourceRuntime

variable {α T : Type}

/-- A source and a transactional sink. -/
abbrev Delivery (α : Type) := Delivering (TransactionalSink α)

/-- **The record and its offset are committed**, in one transaction and nothing
else in it, and the hook that follows has run. -/
structure Committed (groupId : String) (outbound : α) (delivery : TopicPartition × ℤ)
    (s t : Delivery α) : Prop where
  transaction : ∃ k,
    t.sink.kafka.broker.committed = s.sink.kafka.broker.committed ++ [k]
    ∧ [outbound].Sublist ((newSends s.sink.kafka t.sink.kafka).map Send.record)
    ∧ (∀ send ∈ newSends s.sink.kafka t.sink.kafka, send.transaction = some k)
    ∧ t.sink.offsets = s.sink.offsets ++ [⟨transactionOffsets delivery, groupId, some k⟩]
  cursor : t.cursor = s.cursor.markTransactionCommitted delivery.1 delivery.2
  acknowledged : t.acknowledged = true

/-- **Nothing is committed**: what was sent is in a transaction begun by the
call, no transaction is open, and the source is as it was. -/
structure Aborted (s t : Delivery α) : Prop where
  committed : t.sink.kafka.broker.committed = s.sink.kafka.broker.committed
  sends : ∀ send ∈ newSends s.sink.kafka t.sink.kafka,
    send.transaction = some s.sink.kafka.broker.nextTransaction
  openTransaction : t.sink.kafka.broker.openTransaction = none
  cursor : t.cursor = s.cursor
  acknowledged : t.acknowledged = s.acknowledged

/-- What a call that reaches the sink may leave, and one that does not. -/
def Outcome (rt : KafkaSourceRuntime (TransactionalSink α) T α) (record : T)
    (s t : Delivery α) : Prop :=
  match rt.outbound record, s.active with
  | .ok outbound, some delivery =>
    Xor (Committed rt.groupId outbound delivery s t) (Aborted s t)
  | _, _ => Aborted s t

/-- **All or nothing**: exactly one of the two outcomes, and the sink is in no
transaction. -/
def AllOrNothing (rt : KafkaSourceRuntime (TransactionalSink α) T α) (record : T)
    (s t : Delivery α) : Prop :=
  Outcome rt record s t ∧ t.sink.kafka.inTransaction = false

/-- The sink is in no transaction. -/
def OutsideTransaction (s : Delivery α) : Prop :=
  s.sink.kafka.inTransaction = false ∧ s.sink.kafka.broker.openTransaction = none

instance (s : Delivery α) : Decidable (OutsideTransaction s) :=
  inferInstanceAs (Decidable (_ ∧ _))

/-- The settings of a runtime whose sink is a Kafka sink. -/
def runtime (cfg : Config α) (retry : RetryAsync α) (source : SourceConfig)
    (groupId : String) (transform : T → Except Exc α) (decorate : α → Except Exc α) :
    KafkaSourceRuntime (TransactionalSink α) T α where
  source := source
  groupId := groupId
  sink := sinkMethods cfg retry
  transform := transform
  decorate := decorate

variable (cfg : Config α) (retry : RetryAsync α)

/-- **No step is disturbed**: once the transaction has begun no cancellation
arrives before the commit is over, and the abort that follows an exception does
not raise. Before that, the sink was in no transaction to begin with. -/
def Undisturbed (rt : KafkaSourceRuntime (TransactionalSink α) T α) (flush : Bool)
    (record : T) (s : Delivery α) : Prop :=
  match rt.outbound record, s.active with
  | .ok outbound, some delivery =>
    match onSink (onKafka beginTransaction) s with
    | .error _ _ => OutsideTransaction s
    | .ok _ t =>
      match rt.transactionBody (transactionMethods cfg retry) outbound delivery flush t with
      | .ok _ _ => True
      | .error e u =>
        e.isException = true ∧ raises (onSink (onKafka abortTransaction)) u = false
  | _, _ => OutsideTransaction s

/-! ## The whole of a call -/

/-- A step of the sink proper, with everything else as it was. -/
structure OnKafka (R : State α → State α → Prop) (s t : Delivery α) : Prop where
  kafka : R s.sink.kafka t.sink.kafka
  rest : t = { s with sink := { s.sink with kafka := t.sink.kafka } }

theorem exits_onKafka {β : Type} {R E : State α → State α → Prop} {m : SinkM α β}
    (h : Exits R E m) : Exits (OnKafka R) (OnKafka E) (onSink (onKafka m)) := by
  intro s
  unfold onSink onKafka
  rw [ensures_zoom, ensures_zoom]
  refine (h s.sink.kafka).mono (fun r t hst => ?_)
  cases r with
  | ok _ => exact ⟨hst, rfl⟩
  | error _ => exact ⟨hst, rfl⟩

theorem OnKafka.trans {R R' R'' : State α → State α → Prop}
    (h : ∀ s t u, R s t → R' t u → R'' s u) {s t u : Delivery α} (hst : OnKafka R s t)
    (htu : OnKafka R' t u) : OnKafka R'' s u where
  kafka := h _ _ _ hst.kafka htu.kafka
  rest := by
    rw [htu.rest, hst.rest]

/-- **Still within the transaction** that was open, and the source as it was. -/
structure Inside (s t : Delivery α) : Prop where
  sends : Extends [] s.sink.kafka t.sink.kafka
  cursor : t.cursor = s.cursor
  acknowledged : t.acknowledged = s.acknowledged

theorem OnKafka.inside {records : List α} {s t : Delivery α}
    (h : OnKafka (Extends records) s t) : Inside s t where
  sends := h.kafka.forget
  cursor := by rw [h.rest]
  acknowledged := by rw [h.rest]

theorem Inside.trans {s t u : Delivery α} (h : Inside s t) (h' : Inside t u) :
    Inside s u where
  sends := h.sends.trans h'.sends
  cursor := h'.cursor.trans h.cursor
  acknowledged := h'.acknowledged.trans h.acknowledged

/-- **The body has committed** what it sent in the transaction it found open. -/
structure Done (groupId : String) (outbound : α) (delivery : TopicPartition × ℤ)
    (s t : Delivery α) : Prop where
  committed : t.sink.kafka.broker.committed
    = s.sink.kafka.broker.committed ++ s.sink.kafka.broker.openTransaction.toList
  sends : ∃ new, t.sink.kafka.broker.sends = s.sink.kafka.broker.sends ++ new
    ∧ [outbound].Sublist (new.map Send.record)
    ∧ ∀ send ∈ new, send.transaction = s.sink.kafka.broker.openTransaction
  offsets : t.sink.offsets = s.sink.offsets
    ++ [⟨transactionOffsets delivery, groupId, s.sink.kafka.broker.openTransaction⟩]
  inTransaction : t.sink.kafka.inTransaction = false
  cursor : t.cursor = s.cursor
  acknowledged : t.acknowledged = s.acknowledged

/-- The record has been written and the offsets sent, in the open transaction. -/
structure Ready (groupId : String) (outbound : α) (delivery : TopicPartition × ℤ)
    (s t : Delivery α) : Prop where
  sends : Extends [outbound] s.sink.kafka t.sink.kafka
  offsets : t.sink.offsets = s.sink.offsets
    ++ [⟨transactionOffsets delivery, groupId, s.sink.kafka.broker.openTransaction⟩]
  cursor : t.cursor = s.cursor
  acknowledged : t.acknowledged = s.acknowledged

theorem Ready.inside {groupId : String} {outbound : α} {delivery : TopicPartition × ℤ}
    {s t : Delivery α} (h : Ready groupId outbound delivery s t) : Inside s t where
  sends := h.sends.forget
  cursor := h.cursor
  acknowledged := h.acknowledged

/-- A commit after that. -/
theorem Ready.done {groupId : String} {outbound : α} {delivery : TopicPartition × ℤ}
    {s t u : Delivery α} (h : Ready groupId outbound delivery s t)
    (h' : OnKafka Closes t u) : Done groupId outbound delivery s u := by
  obtain ⟨new, hs, hr, ht⟩ := h.sends.sends
  obtain ⟨again, hs', ht'⟩ := h'.kafka.committed.sends
  exact
    { committed := by
        rw [h'.kafka.committed.committed, h.sends.committed, h.sends.openTransaction]
      sends := by
        refine ⟨new ++ again, by rw [hs', hs, List.append_assoc], ?_, fun send hsend => ?_⟩
        · rw [List.map_append]
          exact hr.trans (List.sublist_append_left _ _)
        · rcases List.mem_append.1 hsend with hsend | hsend
          · exact ht send hsend
          · rw [ht' send hsend, h.sends.openTransaction]
      offsets := by rw [h'.rest]; exact h.offsets
      inTransaction := h'.kafka.inTransaction
      cursor := by rw [h'.rest]; exact h.cursor
      acknowledged := by rw [h'.rest]; exact h.acknowledged }

theorem exits_flushIf (rt : KafkaSourceRuntime (TransactionalSink α) T α)
    (hsink : rt.sink = sinkMethods cfg retry) (flush : Bool) :
    Exits (OnKafka (Extends [])) (OnKafka (Extends [])) (rt.flushIf flush) := by
  unfold flushIf
  cases flush with
  | true =>
    rw [if_pos rfl, hsink]
    exact exits_onKafka (sends_flush cfg retry)
  | false => exact fun _ => ⟨.of_broker rfl rfl, rfl⟩

theorem exits_sendOffsets (offsets : OffsetMap) (groupId : String) :
    Exits (fun s t => Extends [] s.sink.kafka t.sink.kafka
        ∧ t.sink.offsets = s.sink.offsets
          ++ [⟨offsets, groupId, s.sink.kafka.broker.openTransaction⟩]
        ∧ t.cursor = s.cursor ∧ t.acknowledged = s.acknowledged)
      Inside (onSink (sendOffsetsToTransaction offsets groupId) :
        DeliveryM (TransactionalSink α) PUnit) := by
  intro s
  unfold onSink sendOffsetsToTransaction onKafka
  rw [ensures_zoom, ensures_bind, ensures_zoom]
  refine ensures_requireProducer (fun _ => ?_) (fun _ => ⟨.of_broker rfl rfl, rfl, rfl⟩)
  rw [ensures_bind, ensures_zoom]
  refine ensures_await (fun script => ?_) (fun _ _ => ⟨.of_broker rfl rfl, rfl, rfl⟩)
  exact ⟨.of_broker rfl rfl, rfl, rfl, rfl⟩

/-- **What the body does**: all of it and the commit, or it is still within the
transaction. -/
theorem exits_transactionBody (rt : KafkaSourceRuntime (TransactionalSink α) T α)
    (hsink : rt.sink = sinkMethods cfg retry) (outbound : α)
    (delivery : TopicPartition × ℤ) (flush : Bool) :
    Exits (Done rt.groupId outbound delivery) Inside
      (rt.transactionBody (transactionMethods cfg retry) outbound delivery flush) := by
  intro s
  unfold transactionBody
  have hwrite : Exits (OnKafka (Extends [outbound])) (OnKafka (Extends []))
      (onSink (rt.sink.write outbound)) := by
    rw [hsink]
    exact exits_onKafka (sends_write cfg retry outbound)
  refine (hwrite s).bind (fun _ t hst => ?_) (fun _ t hst => hst.inside)
  refine (exits_flushIf cfg retry rt hsink flush t).bind (fun _ u htu => ?_)
    (fun _ u htu => hst.inside.trans htu.inside)
  have hsu : OnKafka (Extends [outbound]) s u := hst.trans (fun _ _ _ h h' => h.trans h') htu
  refine (exits_sendOffsets (transactionOffsets delivery) rt.groupId u).bind
    (fun _ v huv => ?_) (fun _ v huv => hsu.inside.trans huv)
  have hready : Ready rt.groupId outbound delivery s v := by
    obtain ⟨hsends, hoffsets, hcursor, hacknowledged⟩ := huv
    refine ⟨hsu.kafka.trans hsends, ?_, ?_, ?_⟩
    · rw [hoffsets, hsu.kafka.openTransaction, hsu.rest]
    · rw [hcursor, hsu.rest]
    · rw [hacknowledged, hsu.rest]
  refine (exits_onKafka (exits_commitTransaction_closes cfg retry) v).mono (fun r w hvw => ?_)
  cases r with
  | ok _ => exact hready.done hvw
  | error _ => exact hready.inside.trans hvw.inside

/-! ### The outcomes exclude each other -/

theorem Committed.not_aborted {groupId : String} {outbound : α}
    {delivery : TopicPartition × ℤ} {s t : Delivery α}
    (h : Committed groupId outbound delivery s t) : ¬ Aborted s t := by
  intro h'
  obtain ⟨k, hk, _⟩ := h.transaction
  have hnil : s.sink.kafka.broker.committed
      = s.sink.kafka.broker.committed ++ [k] := h'.committed.symm.trans hk
  exact absurd (congrArg List.length hnil) (by simp)

/-- **A call that has not begun a transaction** leaves what it found. -/
theorem aborted_iff_outsideTransaction {s t : Delivery α}
    (h : OnKafka Untouched s t) :
    Aborted s t ∧ t.sink.kafka.inTransaction = false ↔ OutsideTransaction s := by
  constructor
  · rintro ⟨haborted, hflag⟩
    refine ⟨h.kafka.inTransaction.symm.trans hflag, ?_⟩
    rw [← h.kafka.broker]
    exact haborted.openTransaction
  · rintro ⟨hflag, hopen⟩
    refine ⟨⟨?_, ?_, ?_, ?_, ?_⟩, h.kafka.inTransaction.trans hflag⟩
    · rw [h.kafka.broker]
    · intro send hsend
      have hnil : newSends s.sink.kafka t.sink.kafka = [] :=
        newSends_eq (by rw [h.kafka.broker, List.append_nil])
      rw [hnil] at hsend
      cases hsend
    · rw [h.kafka.broker]
      exact hopen
    · rw [h.rest]
    · rw [h.rest]

/-- The same of a call that had a record to send and a delivery to commit. -/
theorem xor_iff_outsideTransaction {groupId : String} {outbound : α}
    {delivery : TopicPartition × ℤ} {s t : Delivery α} (h : OnKafka Untouched s t) :
    Xor (Committed groupId outbound delivery s t) (Aborted s t)
      ∧ t.sink.kafka.inTransaction = false ↔ OutsideTransaction s := by
  have hnot : ¬ Committed groupId outbound delivery s t := by
    intro hc
    obtain ⟨k, hk, _⟩ := hc.transaction
    rw [h.kafka.broker] at hk
    exact absurd (congrArg List.length hk) (by simp)
  rw [← aborted_iff_outsideTransaction h]
  refine and_congr_left' ⟨fun hx => ?_, fun ha => .inr ⟨ha, hnot⟩⟩
  rcases hx with ⟨hc, _⟩ | ⟨ha, _⟩
  · exact absurd hc hnot
  · exact ha

/-- A begin, the body, and the hook. -/
theorem Done.committed_hook {groupId : String} {outbound : α}
    {delivery : TopicPartition × ℤ} {s t u : Delivery α} (hst : OnKafka Begins s t)
    (htu : Done groupId outbound delivery t u) :
    Committed groupId outbound delivery s
      { u with
        acknowledged := true
        cursor := u.cursor.markTransactionCommitted delivery.1 delivery.2 } where
  transaction := by
    have hopen := hst.kafka.begun.openTransaction
    obtain ⟨new, hs, hr, ht⟩ := htu.sends
    have hnew : newSends s.sink.kafka u.sink.kafka = new :=
      newSends_eq (by rw [hs, hst.kafka.begun.sends])
    refine ⟨s.sink.kafka.broker.nextTransaction, ?_, ?_, ?_, ?_⟩
    · show u.sink.kafka.broker.committed = _
      rw [htu.committed, hopen, hst.kafka.committed]
      rfl
    · show [outbound].Sublist ((newSends s.sink.kafka u.sink.kafka).map Send.record)
      rw [hnew]
      exact hr
    · show ∀ send ∈ newSends s.sink.kafka u.sink.kafka, _
      intro send hsend
      rw [hnew] at hsend
      rw [ht send hsend, hopen]
    · show u.sink.offsets = _
      rw [htu.offsets, hopen, hst.rest]
  cursor := by
    show u.cursor.markTransactionCommitted delivery.1 delivery.2 = _
    rw [htu.cursor, hst.rest]
  acknowledged := rfl

/-- A begin, some of the body, and an abort. -/
theorem Inside.aborted {s t u v : Delivery α} (hst : OnKafka Begins s t)
    (htu : Inside t u) (huv : OnKafka Aborts u v) : Aborted s v where
  committed := by
    rw [huv.kafka.committed, htu.sends.committed, hst.kafka.committed]
  sends := by
    obtain ⟨new, hs, _, ht⟩ := htu.sends.sends
    have hnew : newSends s.sink.kafka v.sink.kafka = new :=
      newSends_eq (by rw [huv.kafka.sends, hs, hst.kafka.begun.sends])
    intro send hsend
    rw [hnew] at hsend
    rw [ht send hsend, hst.kafka.begun.openTransaction]
  openTransaction := huv.kafka.openTransaction
  cursor := by rw [huv.rest, htu.cursor, hst.rest]
  acknowledged := by rw [huv.rest, htu.acknowledged, hst.rest]

/-! ## The law -/

theorem not_raises_iff {β : Type} {m : DeliveryM (TransactionalSink α) β} {s : Delivery α} :
    raises m s = false ↔ ∃ a t, m s = .ok a t := by
  unfold raises
  cases m s with
  | ok a t => simp
  | error e t => simp

/-- **A call that has begun its transaction**, from the begin on. -/
theorem transaction_allOrNothing_iff (rt : KafkaSourceRuntime (TransactionalSink α) T α)
    (hsink : rt.sink = sinkMethods cfg retry) (outbound : α)
    (delivery : TopicPartition × ℤ) (flush : Bool) {s t : Delivery α}
    (hst : OnKafka Begins s t) :
    Ensures (do
        tryCatch (rt.transactionBody (transactionMethods cfg retry) outbound delivery flush)
          (abortOnException (transactionMethods cfg retry))
        committed delivery
        pure outbound) t
      (fun _ u => Xor (Committed rt.groupId outbound delivery s u) (Aborted s u)
        ∧ u.sink.kafka.inTransaction = false)
    ↔ match rt.transactionBody (transactionMethods cfg retry) outbound delivery flush t with
      | .ok _ _ => True
      | .error e u =>
        e.isException = true ∧ raises (onSink (onKafka abortTransaction)) u = false := by
  have hbody := exits_transactionBody cfg retry rt hsink outbound delivery flush
  rw [ensures_bind, ensures_tryCatch]
  cases hrun : rt.transactionBody (transactionMethods cfg retry) outbound delivery flush t with
  | ok a u =>
    have htu : Done rt.groupId outbound delivery t u := hbody.of_ok hrun
    rw [ensures_iff_of_ok hrun]
    refine iff_of_true ?_ trivial
    have hcommitted := htu.committed_hook hst
    exact ⟨.inl ⟨hcommitted, hcommitted.not_aborted⟩, htu.inTransaction⟩
  | error e u =>
    have htu : Inside t u := hbody.of_error hrun
    have hflag : u.sink.kafka.inTransaction = true := by
      rw [htu.sends.inTransaction, hst.kafka.inTransaction]
    rw [ensures_iff_of_error hrun]
    show Ensures (abortOnException (transactionMethods cfg retry) e) u _ ↔ _
    unfold abortOnException
    cases he : e.isException with
    | false =>
      -- a cancellation passes the handler by
      refine iff_of_false ?_ (by simp [he])
      rintro ⟨_, hdown⟩
      rw [hflag] at hdown
      cases hdown
    | true =>
      rw [if_pos rfl, ensures_bind]
      have habort := exits_onKafka (α := α) exits_abortTransaction
      cases hab : (onSink (onKafka abortTransaction) :
          DeliveryM (TransactionalSink α) PUnit) u with
      | ok _ v =>
        have huv : OnKafka Aborts u v := habort.of_ok hab
        have haborted : Aborted s v := htu.aborted hst huv
        have hno : raises (onSink (onKafka abortTransaction)) u = false :=
          not_raises_iff.2 ⟨_, _, hab⟩
        refine (ensures_iff_of_ok hab).trans (iff_of_true ?_ ⟨he, hno⟩)
        exact ⟨.inr ⟨haborted, fun hc => hc.not_aborted haborted⟩, huv.kafka.inTransaction⟩
      | error e' v =>
        have huv : OnKafka (Extends []) u v := habort.of_error hab
        refine (ensures_iff_of_error hab).trans (iff_of_false ?_ ?_)
        · rintro ⟨_, hdown⟩
          rw [huv.kafka.inTransaction, hflag] at hdown
          cases hdown
        · rintro ⟨_, hno⟩
          obtain ⟨_, _, hok⟩ := not_raises_iff.1 hno
          rw [hab] at hok
          cases hok

/-- **Delivery in a transaction is all or nothing** in exactly the calls that
are not disturbed: whatever else fails, and wherever, the record and its offset
are committed together or neither is, and the sink is in no transaction. -/
theorem deliver_allOrNothing_iff (source : SourceConfig) (groupId : String)
    (transform : T → Except Exc α) (decorate : α → Except Exc α) (flush : Bool) (record : T)
    (s : Delivery α) :
    Ensures ((runtime cfg retry source groupId transform decorate).deliver flush true record) s
      (fun _ t => AllOrNothing (runtime cfg retry source groupId transform decorate) record s t)
    ↔ Undisturbed cfg retry (runtime cfg retry source groupId transform decorate) flush
        record s := by
  have hself : OnKafka Untouched s s := ⟨⟨rfl, rfl⟩, rfl⟩
  unfold deliver Undisturbed AllOrNothing Outcome
  cases houtbound : (runtime cfg retry source groupId transform decorate).outbound record with
  | error e => exact aborted_iff_outsideTransaction hself
  | ok outbound =>
    rw [ensures_bind, ensures_get]
    dsimp only
    cases hactive : s.active with
    | none => exact aborted_iff_outsideTransaction hself
    | some delivery =>
      show Ensures (do
        onSink (onKafka beginTransaction)
        _) s _ ↔ _
      rw [ensures_bind]
      have hbegin := exits_onKafka (α := α) exits_beginTransaction_begins
      cases hb : (onSink (onKafka beginTransaction) :
          DeliveryM (TransactionalSink α) PUnit) s with
      | error e t =>
        have hst : OnKafka Untouched s t := hbegin.of_error hb
        rw [ensures_iff_of_error hb]
        exact xor_iff_outsideTransaction hst
      | ok _ t =>
        have hst : OnKafka Begins s t := hbegin.of_ok hb
        rw [ensures_iff_of_ok hb]
        exact transaction_allOrNothing_iff cfg retry _ rfl outbound delivery flush hst

/-! ## A delivery that is cancelled -/

/-- A record of a topic, delivered by a sink with a transactional id. The task
is cancelled while the offsets are sent, the fourth of its await points. -/
def cancelledInTransaction : Delivery ℕ where
  sink := { kafka := { producer := true, script := [.ok, .ok, .ok, .raises .cancelled] } }
  active := some (⟨"orders", 0⟩, 7)

/-- **The transaction stays open** when the delivery is cancelled there. -/
theorem deliver_not_allOrNothing :
    ¬ Ensures ((runtime transactionalConfig (RetryAsync.upTo ℕ 2) {} "billing"
        Except.ok Except.ok).deliver false true 1) cancelledInTransaction
      (fun _ t => AllOrNothing (runtime transactionalConfig (RetryAsync.upTo ℕ 2) {} "billing"
        Except.ok Except.ok) 1 cancelledInTransaction t) := by
  intro h
  have hflag : Ensures ((runtime transactionalConfig (RetryAsync.upTo ℕ 2) {} "billing"
      Except.ok Except.ok).deliver false true 1) cancelledInTransaction
      (fun _ t => t.sink.kafka.inTransaction = false) := h.mono (fun _ _ h => h.2)
  exact absurd hflag (by decide)

end TransactionalSink

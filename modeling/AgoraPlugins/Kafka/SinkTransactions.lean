import AgoraPlugins.Kafka.Sink

/-!
# Batches and their transactions

With `transaction_per_batch` a `write_batch` that returns should have its
records in a committed transaction. What it does depends on a flag earlier
calls have left: a batch written while `_in_transaction` is set gets no
transaction of its own. The flag is meant for a caller who has opened a
transaction; but a commit that raises leaves it set too – the commit stands in
the `else` of the handler that would abort – and so does an abort that raises,
or a cancellation, which `except Exception` does not see.

The law therefore holds of exactly the calls that find the flag down. A call
that finds it up and returns has sent its records in a transaction nobody has
committed (`not_durable_of_inTransaction`).
-/

open Machine Effect

namespace KafkaSink

variable {α β : Type}

/-! ## Sending within a transaction -/

/-- **The records have been sent**, in order, among sends that all carry the
transaction open at the start; nothing about transactions has changed. -/
structure Extends (records : List α) (s t : State α) : Prop where
  openTransaction : t.broker.openTransaction = s.broker.openTransaction
  nextTransaction : t.broker.nextTransaction = s.broker.nextTransaction
  committed : t.broker.committed = s.broker.committed
  inTransaction : t.inTransaction = s.inTransaction
  sends : ∃ new, t.broker.sends = s.broker.sends ++ new
    ∧ records.Sublist (new.map Send.record)
    ∧ ∀ send ∈ new, send.transaction = s.broker.openTransaction

namespace Extends

/-- Nothing is sent where the log of the broker stays as it is. -/
theorem of_broker {s t : State α} (hb : t.broker = s.broker)
    (hi : t.inTransaction = s.inTransaction) : Extends [] s t where
  openTransaction := by rw [hb]
  nextTransaction := by rw [hb]
  committed := by rw [hb]
  inTransaction := hi
  sends := ⟨[], by rw [hb, List.append_nil], List.nil_sublist _, by simp⟩

/-- What is sent first stands before what is sent after it. -/
theorem trans {records records' : List α} {s t u : State α} (h : Extends records s t)
    (h' : Extends records' t u) : Extends (records ++ records') s u where
  openTransaction := h'.openTransaction.trans h.openTransaction
  nextTransaction := h'.nextTransaction.trans h.nextTransaction
  committed := h'.committed.trans h.committed
  inTransaction := h'.inTransaction.trans h.inTransaction
  sends := by
    obtain ⟨new, hs, hr, ht⟩ := h.sends
    obtain ⟨new', hs', hr', ht'⟩ := h'.sends
    refine ⟨new ++ new', ?_, ?_, ?_⟩
    · rw [hs', hs, List.append_assoc]
    · rw [List.map_append]
      exact hr.append hr'
    · intro send hsend
      rcases List.mem_append.1 hsend with hsend | hsend
      · exact ht send hsend
      · rw [ht' send hsend, h.openTransaction]

/-- Less is said if the records are not. -/
theorem forget {records : List α} {s t : State α} (h : Extends records s t) :
    Extends [] s t where
  openTransaction := h.openTransaction
  nextTransaction := h.nextTransaction
  committed := h.committed
  inTransaction := h.inTransaction
  sends := by
    obtain ⟨new, hs, _, ht⟩ := h.sends
    exact ⟨new, hs, List.nil_sublist _, ht⟩

instance : IsPreorder (State α) (Extends []) where
  refl _ := of_broker rfl rfl
  trans _ _ _ h h' := h.trans h'

end Extends

/-- **A computation that sends the records**: if it returns they have all been
sent, if it raises some may have been. -/
abbrev Sends (records : List α) (m : SinkM α β) : Prop :=
  Exits (Extends records) (Extends []) m

namespace Sends

variable {γ : Type} {records records' : List α}

/-- **One after the other**: the records of both are sent in this order. -/
theorem bind {m : SinkM α β} {f : β → SinkM α γ} (hm : Sends records m)
    (hf : ∀ b, Sends records' (f b)) : Sends (records ++ records') (m >>= f) :=
  Exits.bind hm hf (fun _ _ _ h h' => h.trans h') (fun _ _ h => h)
    (fun _ _ _ h h' => h.forget.trans h')

/-- What is sent after something that sends nothing of the batch. -/
theorem after {m : SinkM α β} {f : β → SinkM α γ} (hm : Sends [] m)
    (hf : ∀ b, Sends records (f b)) : Sends records (m >>= f) :=
  Sends.bind hm hf

/-- What is sent before something that sends nothing of the batch. -/
theorem before {m : SinkM α β} {f : β → SinkM α γ} (hm : Sends records m)
    (hf : ∀ b, Sends [] (f b)) : Sends records (m >>= f) := by
  have h := Sends.bind hm hf
  rwa [List.append_nil] at h

end Sends

theorem sends_pure (b : β) : Sends [] (pure b : SinkM α β) :=
  (respects_pure b).exits

theorem sends_get : Sends [] (get : SinkM α (State α)) :=
  respects_get.exits

/-- What touches neither the broker nor the transaction sends nothing. -/
theorem sends_modify {f : State α → State α} (hb : ∀ s, (f s).broker = s.broker)
    (hi : ∀ s, (f s).inTransaction = s.inTransaction) :
    Sends [] (modify f : SinkM α PUnit) :=
  (respects_modify (fun s => Extends.of_broker (hb s) (hi s))).exits

/-- A loop over the batch sends it if its body sends each record. -/
theorem sends_forM {f : α → SinkM α PUnit} (hf : ∀ record, Sends [record] (f record)) :
    ∀ records : List α, Sends records (records.forM f)
  | [] => sends_pure _
  | record :: records => (hf record).bind (fun _ => sends_forM hf records)

/-- A wait sends nothing, however it ends. -/
theorem sends_await : Sends [] (await : SinkM α PUnit) :=
  fun _ => ensures_await (fun _ => .of_broker rfl rfl) (fun _ _ => .of_broker rfl rfl)

theorem sends_requireProducer : Sends [] (requireProducer : SinkM α PUnit) :=
  fun _ => ensures_requireProducer (fun _ => .of_broker rfl rfl) (fun _ => .of_broker rfl rfl)

/-- The send itself: the one place where the log of sends grows. -/
theorem sends_issueSend (record : α) (message : ResolvedKafkaSinkMessage) :
    Sends [record] (issueSend record message) := by
  unfold issueSend
  cases message.value with
  | none =>
    intro s
    rw [ensures_throw]
    exact Extends.of_broker rfl rfl
  | some _ =>
    refine sends_await.after (fun _ => ?_)
    intro s
    rw [ensures_modify]
    exact
      { openTransaction := rfl
        nextTransaction := rfl
        committed := rfl
        inTransaction := rfl
        sends := ⟨[⟨record, message, s.broker.openTransaction⟩], rfl, List.Sublist.refl _,
          by simp⟩ }

variable (cfg : Config α) (retry : RetryAsync α)

/-- Retrying sends what an attempt does: the failed attempts may have sent more,
in the same transaction. -/
theorem Sends.retried {records : List α} {m : SinkM α β} (h : Sends records m) :
    Sends records (retry.run m) :=
  Attempts.exits h (Exits.respects (h.mono (fun _ _ h => h.forget) (fun _ _ h => h)))
    (fun _ _ _ h h' => h.trans h') (retry.attempts m)

/-- **A record is sent** once, by the attempt that succeeds. -/
theorem sends_sendWithRetry (record : α) (message : ResolvedKafkaSinkMessage) :
    Sends [record] (sendWithRetry retry record message) := by
  unfold sendWithRetry
  refine sends_requireProducer.after (fun _ => ?_)
  refine ((sends_issueSend record message).retried retry).before (fun _ => ?_)
  refine sends_get.after (fun s => ?_)
  refine Sends.after ?_ (fun _ => sends_pure _)
  exact sends_modify (fun _ => rfl) (fun _ => rfl)

/-- Waiting for a delivery sends nothing new. -/
theorem sends_awaitDelivery (id : ℕ) : Sends [] (awaitDelivery id : SinkM α PUnit) :=
  sends_await.bind (fun _ => sends_modify (fun _ => rfl) (fun _ => rfl))

/-- A delivery that failed is sent again, which is no record of the batch. -/
theorem respects_confirmAgain (delivery : Delivery α) (e : Exc) :
    Respects (Extends []) (confirmAgain cfg retry delivery e) := by
  unfold confirmAgain
  cases e.isException && cfg.shouldRetry e 1 with
  | false => exact respects_throw e
  | true =>
    have hsend : Sends [delivery.record] (sendAndConfirm delivery) :=
      (sends_issueSend delivery.record delivery.message).before
        (fun _ => sends_awaitDelivery delivery.id)
    exact ((hsend.retried retry).mono (fun _ _ h => h.forget) (fun _ _ h => h)).respects

/-- Confirming a delivery, which may send its message again, sends nothing of
the batch at hand. -/
theorem sends_confirm (delivery : Delivery α) : Sends [] (confirm cfg retry delivery) := by
  unfold confirm
  refine (Respects.tryCatch (Respects.tryCatch ?_ (fun e => ?_)) (fun e => ?_)).exits
  · exact (sends_awaitDelivery delivery.id).respects
  · exact respects_confirmAgain cfg retry delivery e
  · refine Respects.bind ?_ (fun _ => respects_throw e)
    exact respects_modify (fun _ => .of_broker rfl rfl)

/-- So the oldest acknowledgement is waited for without a new record. -/
theorem sends_awaitOldestAck : Sends [] (awaitOldestAck cfg retry) := by
  unfold awaitOldestAck
  refine sends_get.bind (fun s => ?_)
  cases s.pendingAcks with
  | nil => exact sends_pure _
  | cons delivery pendingAcks =>
    refine Sends.after ?_ (fun _ => sends_confirm cfg retry delivery)
    exact sends_modify (fun _ => rfl) (fun _ => rfl)

/-- **Waiting for acknowledgements sends nothing.** By induction on how many are left. -/
theorem sends_drainLoop : ∀ n : ℕ, Sends [] (drainLoop cfg retry n)
  | 0 => sends_pure _
  | n + 1 => by
    unfold drainLoop
    refine sends_get.bind (fun s => ?_)
    by_cases hs : s.pendingAcks = []
    · rw [if_pos hs]
      exact sends_pure _
    · rw [if_neg hs]
      exact (sends_awaitOldestAck cfg retry).bind (fun _ => sends_drainLoop n)

/-- All acknowledgements are waited for. -/
theorem sends_drainPendingAcks : Sends [] (drainPendingAcks cfg retry) :=
  sends_get.bind (fun s => sends_drainLoop cfg retry s.pendingAcks.length)

/-- A delivery is put aside, after waiting for others if there are too many. -/
theorem sends_park (delivery : Delivery α) : Sends [] (park cfg retry delivery) := by
  unfold park
  refine Sends.after ?_ (fun _ => sends_get.after (fun s => ?_))
  · exact sends_modify (fun _ => rfl) (fun _ => rfl)
  · by_cases hs : cfg.maxPendingAcks ≤ s.pendingAcks.length
    · rw [if_pos hs]
      exact sends_awaitOldestAck cfg retry
    · rw [if_neg hs]
      exact sends_pure _

/-- **One record**, with or without an acknowledgement to wait for. -/
theorem sends_enqueueSend (record : α) : Sends [record] (enqueueSend cfg retry record) :=
  sends_requireProducer.after (fun _ => sends_await.after (fun _ =>
    (sends_sendWithRetry retry record _).before (fun delivery =>
      sends_park cfg retry delivery)))

/-- A record that has been serialized is sent once. -/
theorem sends_enqueueSerialized (record : α) :
    Sends [record] (enqueueSerialized cfg retry record) :=
  sends_await.after (fun _ => (sends_sendWithRetry retry record _).before (fun delivery =>
    sends_park cfg retry delivery))

/-- **A batch is sent within the transaction that is open**, whichever of the
two paths it takes. -/
theorem sends_writeBatchUnwrapped (records : List α) :
    Sends records (writeBatchUnwrapped cfg retry records) := by
  unfold writeBatchUnwrapped
  by_cases hm : cfg.routing.messageFn.isSome
  · rw [if_pos hm]
    exact sends_forM (sends_enqueueSend cfg retry) records
  · rw [if_neg hm]
    refine Sends.after ?_ (fun _ => sends_forM (sends_enqueueSerialized cfg retry) records)
    exact (respects_forM (fun _ => sends_await.respects) records).exits

/-! ## A batch in a transaction of its own -/

/-- The sends one call has made: those beyond what was there. -/
def newSends (s t : State α) : List (Send α) :=
  t.broker.sends.drop s.broker.sends.length

/-- What is new in the log is what was appended to it. -/
theorem newSends_eq {s t : State α} {new : List (Send α)}
    (h : t.broker.sends = s.broker.sends ++ new) : newSends s t = new := by
  unfold newSends
  rw [h, List.drop_left]

/-- **The records were sent in a committed transaction**, one and the same for
all of them, and nothing else was sent outside it. -/
def SentCommitted (records : List α) (s t : State α) : Prop :=
  ∃ k ∈ t.broker.committed, records.Sublist ((newSends s t).map Send.record)
    ∧ ∀ send ∈ newSends s t, send.transaction = some k

instance [DecidableEq α] (records : List α) (s t : State α) :
    Decidable (SentCommitted records s t) :=
  inferInstanceAs (Decidable (∃ k ∈ t.broker.committed, _ ∧ _))

/-- What a `begin` that returns has done. -/
structure Begun (s t : State α) : Prop where
  openTransaction : t.broker.openTransaction = some s.broker.nextTransaction
  sends : t.broker.sends = s.broker.sends

/-- What a `commit` that returns has done: it committed what was open, and the
deliveries it confirmed first may have been sent again in it. -/
structure Committed (s t : State α) : Prop where
  committed : t.broker.committed = s.broker.committed ++ s.broker.openTransaction.toList
  sends : ∃ new, t.broker.sends = s.broker.sends ++ new
    ∧ ∀ send ∈ new, send.transaction = s.broker.openTransaction

/-- Any two states: what is claimed of an exit nothing is claimed of. -/
def Anything (_ _ : State α) : Prop := True

/-- A transaction that has begun is open; one that has not may be in any state. -/
theorem exits_beginTransaction : Exits Begun Anything (beginTransaction : SinkM α PUnit) := by
  intro s
  unfold beginTransaction
  rw [ensures_bind]
  refine ensures_requireProducer (fun _ => ?_) (fun _ => trivial)
  rw [ensures_bind]
  refine ensures_await (fun script => ?_) (fun _ _ => trivial)
  exact ⟨rfl, rfl⟩

variable (cfg : Config α) (retry : RetryAsync α)

/-- **A commit that returns** has committed what was sent in it. -/
theorem exits_commitTransaction : Exits Committed Anything (commitTransaction cfg retry) := by
  intro s
  unfold commitTransaction
  rw [ensures_bind]
  refine ensures_requireProducer (fun _ => ?_) (fun _ => trivial)
  refine (sends_drainPendingAcks cfg retry s).bind (fun _ t hst => ?_) (fun _ _ _ => trivial)
  rw [ensures_bind]
  refine ensures_await (fun script => ?_) (fun _ _ => trivial)
  obtain ⟨new, hs, _, ht⟩ := hst.sends
  refine { committed := ?_, sends := ⟨new, hs, ht⟩ }
  show t.broker.committed ++ t.broker.openTransaction.toList = _
  rw [hst.committed, hst.openTransaction]

/-- The handler of a transaction raises, whatever it does first. -/
theorem raises_transaction_handler (e : Exc) :
    Raises (if e.isException then do
        abortTransaction
        throw e
      else throw e : SinkM α PUnit) := by
  cases e.isException with
  | true => exact Raises.after _ (fun _ => raises_throw e)
  | false => exact raises_throw e

/-- **A transaction that returns has committed what its body sent.** It began a
new one, the body sent its records in it, and the commit is of that one. -/
theorem exits_transaction {records : List α} {body : SinkM α PUnit}
    (hbody : Sends records body) :
    Exits (SentCommitted records) Anything (transaction cfg retry body) := by
  intro s
  unfold transaction
  refine (exits_beginTransaction s).bind (fun _ t hst => ?_) (fun _ _ _ => trivial)
  rw [ensures_bind, ensures_tryCatch]
  refine (hbody t).mono (fun r u htu => ?_)
  cases r with
  | error e =>
    refine ((raises_transaction_handler e) u).mono (fun r v hr => ?_)
    obtain ⟨e', rfl⟩ := hr
    exact trivial
  | ok _ =>
    refine (exits_commitTransaction cfg retry u).mono (fun r v huv => ?_)
    cases r with
    | error e => exact trivial
    | ok _ =>
      obtain ⟨new, hs, hr, ht⟩ := htu.sends
      obtain ⟨again, hs', ht'⟩ := huv.sends
      have hopen : u.broker.openTransaction = some s.broker.nextTransaction :=
        htu.openTransaction.trans hst.openTransaction
      have hnew : newSends s v = new ++ again :=
        newSends_eq (by rw [hs', hs, hst.sends, List.append_assoc])
      refine ⟨s.broker.nextTransaction, ?_, ?_, ?_⟩
      · rw [huv.committed, hopen]
        exact List.mem_append_right _ (List.mem_singleton.2 rfl)
      · rw [hnew, List.map_append]
        exact hr.trans (List.sublist_append_left _ _)
      · intro send hsend
        rw [hnew] at hsend
        rcases List.mem_append.1 hsend with hsend | hsend
        · rw [ht send hsend, hst.openTransaction]
        · rw [ht' send hsend, hopen]

/-! ## What every call keeps -/

/-- **Transactions are numbered**: the open one and the committed ones were all
begun, and the open one is not among the committed. -/
structure Numbered (s : State α) : Prop where
  committed : ∀ k ∈ s.broker.committed, k < s.broker.nextTransaction
  openTransaction : ∀ k, s.broker.openTransaction = some k →
    k < s.broker.nextTransaction ∧ k ∉ s.broker.committed

/-- Records that are appended get the numbers that come next. -/
theorem Extends.numbered {records : List α} {s t : State α} (h : Extends records s t) :
    Keeps Numbered s t := by
  intro hs
  refine ⟨fun k hk => ?_, fun k hk => ?_⟩
  · rw [h.committed] at hk
    rw [h.nextTransaction]
    exact hs.committed k hk
  · rw [h.openTransaction] at hk
    rw [h.nextTransaction, h.committed]
    exact hs.openTransaction k hk

/-- Closing the open transaction, without a commit. -/
theorem Numbered.noTransaction {s t : State α} (hs : Numbered s)
    (hc : t.broker.committed = s.broker.committed)
    (hn : t.broker.nextTransaction = s.broker.nextTransaction)
    (ho : t.broker.openTransaction = none) : Numbered t where
  committed k hk := by
    rw [hc] at hk
    rw [hn]
    exact hs.committed k hk
  openTransaction k hk := by
    rw [ho] at hk
    cases hk

/-- A computation that sends nothing, or sends in the open transaction, keeps
the numbering. -/
theorem Sends.numbered {records : List α} {m : SinkM α β} (h : Sends records m) :
    Respects (Keeps Numbered) m :=
  Exits.respects (h.mono (fun _ _ h => h.numbered) (fun _ _ h => h.numbered))

/-- What leaves the broker alone leaves its numbers. -/
theorem numbered_modify {f : State α → State α} (hb : ∀ s, (f s).broker = s.broker) :
    Respects (Keeps Numbered) (modify f : SinkM α PUnit) := by
  intro s hs
  show Numbered (f s)
  obtain ⟨hc, ho⟩ := hs
  exact ⟨by rw [hb]; exact hc, by rw [hb]; exact ho⟩

/-- Numbers stay in order when a transaction begins. -/
theorem numbered_beginTransaction :
    Respects (Keeps Numbered) (beginTransaction : SinkM α PUnit) := by
  refine sends_requireProducer.numbered.bind (fun _ => sends_await.numbered.bind (fun _ => ?_))
  refine respects_modify (fun s hs => ⟨fun k hk => ?_, fun k hk => ?_⟩)
  · exact Nat.lt_succ_of_lt (hs.committed k hk)
  · obtain rfl : s.broker.nextTransaction = k := Option.some.inj hk
    exact ⟨Nat.lt_succ_self _, fun h => Nat.lt_irrefl _ (hs.committed _ h)⟩

/-- **A commit** changes what is committed, not the order in the log. -/
theorem numbered_commitTransaction :
    Respects (Keeps Numbered) (commitTransaction cfg retry) := by
  refine sends_requireProducer.numbered.bind (fun _ =>
    (sends_drainPendingAcks cfg retry).numbered.bind (fun _ =>
      sends_await.numbered.bind (fun _ => ?_)))
  refine respects_modify (fun s hs => ⟨fun k hk => ?_, fun k hk => by cases hk⟩)
  rcases List.mem_append.1 hk with hk | hk
  · exact hs.committed k hk
  · exact (hs.openTransaction k (Option.mem_toList.1 hk)).1

theorem numbered_clearPendingAcks :
    Respects (Keeps Numbered) (clearPendingAcks : SinkM α PUnit) :=
  numbered_modify (fun _ => rfl)

/-- **An abort** keeps them as well, whatever becomes of the records. -/
theorem numbered_abortTransaction :
    Respects (Keeps Numbered) (abortTransaction : SinkM α PUnit) := by
  refine sends_requireProducer.numbered.bind (fun _ => numbered_clearPendingAcks.bind
    (fun _ => sends_await.numbered.bind (fun _ => ?_)))
  exact respects_modify (fun s hs => hs.noTransaction rfl rfl rfl)

/-- So a transaction keeps them if its body does. -/
theorem numbered_transaction {body : SinkM α PUnit}
    (hbody : Respects (Keeps Numbered) body) :
    Respects (Keeps Numbered) (transaction cfg retry body) := by
  unfold transaction
  refine numbered_beginTransaction.bind (fun _ => (hbody.tryCatch (fun e => ?_)).bind
    (fun _ => numbered_commitTransaction cfg retry))
  cases e.isException with
  | true => exact numbered_abortTransaction.bind (fun _ => respects_throw e)
  | false => exact respects_throw e

/-- `write` keeps the numbers in order. -/
theorem numbered_write (record : α) : Respects (Keeps Numbered) (write cfg retry record) := by
  unfold write
  refine respects_get.bind (fun s => ?_)
  cases s.producer with
  | true => exact (sends_enqueueSend cfg retry record).numbered
  | false => exact respects_throw _

/-- **`write_batch` keeps the numbers in order**, in a transaction of its own or in that of the
runtime. -/
theorem numbered_writeBatch (records : List α) :
    Respects (Keeps Numbered) (writeBatch cfg retry records) := by
  have hbody := (sends_writeBatchUnwrapped cfg retry records).numbered
  unfold writeBatch
  refine sends_requireProducer.numbered.bind (fun _ => respects_get.bind (fun s => ?_))
  cases cfg.transactionPerBatch && !s.inTransaction with
  | true => exact numbered_transaction cfg retry hbody
  | false => exact hbody

/-- **`flush`** sends nothing new, so it keeps them. -/
theorem numbered_flush : Respects (Keeps Numbered) (flush cfg retry) := by
  unfold flush
  refine respects_get.bind (fun s => ?_)
  cases s.producer with
  | true =>
    exact (sends_drainPendingAcks cfg retry).numbered.bind
      (fun _ => (sends_await.retried retry).numbered)
  | false => exact respects_pure _

/-- A hook of the message function sends nothing. -/
theorem numbered_callMessageFnHook : Respects (Keeps Numbered) (callMessageFnHook cfg) := by
  unfold callMessageFnHook
  cases cfg.routing.messageFn.isSome with
  | true => exact sends_await.numbered
  | false => exact respects_pure _

theorem numbered_openSerializer : Respects (Keeps Numbered) (openSerializer cfg) := by
  refine sends_await.numbered.bind (fun _ => Respects.bind ?_
    (fun _ => numbered_callMessageFnHook cfg))
  exact numbered_modify (fun _ => rfl)

theorem numbered_closeSerializer : Respects (Keeps Numbered) (closeSerializer cfg) := by
  unfold closeSerializer
  refine respects_get.bind (fun s => ?_)
  cases s.serializerOpen with
  | false => exact respects_pure _
  | true =>
    refine (numbered_callMessageFnHook cfg).bind (fun _ =>
      sends_await.numbered.bind (fun _ => ?_))
    exact numbered_modify (fun _ => rfl)

/-- A producer that failed to start is stopped, and nothing is sent. -/
theorem numbered_stopFailedProducer (producer : Bool) :
    Respects (Keeps Numbered) (stopFailedProducer producer : SinkM α PUnit) := by
  unfold stopFailedProducer
  cases producer with
  | false => exact respects_pure _
  | true =>
    refine sends_await.numbered.tryCatch (fun e => ?_)
    cases e.isException with
    | true => exact respects_pure _
    | false => exact respects_throw e

/-- **`open`** starts a producer, or stops the one that has failed to start. -/
theorem numbered_open : Respects (Keeps Numbered) (KafkaSink.open cfg) := by
  unfold KafkaSink.open
  refine Respects.tryCatch ?_ (fun e => ?_)
  · refine (numbered_openSerializer cfg).bind (fun _ =>
      Respects.bind ?_ (fun _ => sends_await.numbered))
    exact respects_modify (fun s hs => hs.noTransaction rfl rfl rfl)
  · cases e.isException with
    | false => exact respects_throw e
    | true =>
      refine respects_get.bind (fun s => Respects.bind ?_ (fun _ =>
        (numbered_stopFailedProducer s.producer).bind (fun _ =>
          (numbered_closeSerializer cfg).bind (fun _ => respects_throw e))))
      exact numbered_modify (fun _ => rfl)

theorem numbered_stopProducer : Respects (Keeps Numbered) (stopProducer : SinkM α PUnit) := by
  refine Respects.bind ?_ (fun _ => sends_await.numbered.ensuring numbered_clearPendingAcks)
  exact numbered_modify (fun _ => rfl)

/-- **`close`** aborts a transaction that is open, or flushes, before the producer is stopped. -/
theorem numbered_close : Respects (Keeps Numbered) (close cfg retry) := by
  unfold close
  refine Respects.ensuring (respects_get.bind (fun s => ?_)) (numbered_closeSerializer cfg)
  cases s.producer with
  | false => exact respects_pure _
  | true =>
    refine Respects.ensuring (respects_get.bind (fun s => ?_)) numbered_stopProducer
    cases s.inTransaction with
    | true => exact numbered_abortTransaction
    | false => exact numbered_flush cfg retry

/-- **No method breaks the numbering**, however it exits. -/
theorem numbered_run (method : Method α) :
    Respects (Keeps Numbered) (method.run cfg retry) := by
  cases method with
  | «open» => exact numbered_open cfg
  | write record => exact numbered_write cfg retry record
  | writeBatch records => exact numbered_writeBatch cfg retry records
  | flush => exact numbered_flush cfg retry
  | close => exact numbered_close cfg retry

/-! ## The law of a batch -/

/-- **A batch that returns is durable**: all its records were sent in one
committed transaction. Other calls, and calls that raise, promise nothing. -/
def Durable (s : Session α) (call : Call α) (t : Session α) : Prop :=
  match call.method with
  | .writeBatch records =>
    t.raised = none → records = [] ∨ SentCommitted records s.sink t.sink
  | _ => True

/-- A batch with records is written while the sink is not in a transaction. -/
def OutsideTransaction (s : Session α) (call : Call α) : Prop :=
  match call.method with
  | .writeBatch records => records = [] ∨ s.sink.inTransaction = false
  | _ => True

instance [DecidableEq α] (s : Session α) (call : Call α) (t : Session α) :
    Decidable (Durable s call t) := by
  unfold Durable
  split <;> infer_instance

instance [DecidableEq α] (s : Session α) (call : Call α) :
    Decidable (OutsideTransaction s call) := by
  unfold OutsideTransaction
  split <;> infer_instance

/-- **`write_batch` outside a transaction** has all its records committed when it returns, in their
order. -/
theorem exits_writeBatch {records : List α} {s : State α}
    (hcfg : cfg.transactionPerBatch = true) (hs : s.inTransaction = false) :
    Ensures (writeBatch cfg retry records) s (fun r t => match r with
      | .ok _ => SentCommitted records s t
      | .error _ => True) := by
  unfold writeBatch
  rw [ensures_bind]
  refine ensures_requireProducer (fun _ => ?_) (fun _ => trivial)
  rw [ensures_bind, ensures_get]
  show Ensures (if (cfg.transactionPerBatch && !s.inTransaction) = true then _ else _) s _
  rw [hcfg, hs, Bool.not_false, Bool.and_true, if_pos rfl]
  exact exits_transaction cfg retry (sends_writeBatchUnwrapped cfg retry records) s

/-- **Inside one** it only sends them. -/
theorem exits_writeBatch_of_inTransaction {records : List α} {s : State α}
    (hs : s.inTransaction = true) :
    Ensures (writeBatch cfg retry records) s (fun r t => match r with
      | .ok _ => Extends records s t
      | .error _ => True) := by
  unfold writeBatch
  rw [ensures_bind]
  refine ensures_requireProducer (fun _ => ?_) (fun _ => trivial)
  rw [ensures_bind, ensures_get]
  show Ensures (if (cfg.transactionPerBatch && !s.inTransaction) = true then _ else _) s _
  rw [hs, Bool.not_true, Bool.and_false, if_neg Bool.false_ne_true]
  refine (sends_writeBatchUnwrapped cfg retry records s).mono (fun r t h => ?_)
  cases r with
  | ok _ => exact h
  | error _ => trivial

/-- **A batch sent within a transaction that was open before is in none that is
committed.** -/
theorem Extends.not_sentCommitted {records : List α} {s t : State α} (hs : Numbered s)
    (h : Extends records s t) (hne : records ≠ []) : ¬ SentCommitted records s t := by
  rintro ⟨k, hk, hr, ht⟩
  obtain ⟨new, hsends, _, htxn⟩ := h.sends
  rw [newSends_eq hsends] at hr ht
  obtain ⟨send, hsend⟩ : ∃ send, send ∈ new := by
    cases new with
    | nil => exact absurd (List.sublist_nil.1 hr) hne
    | cons send new => exact ⟨send, List.mem_cons_self⟩
  have hopen : s.broker.openTransaction = some k := (htxn send hsend).symm.trans (ht send hsend)
  rw [h.committed] at hk
  exact (hs.openTransaction k hopen).2 hk

/-- **What decides one batch**: written outside a transaction it is durable if
it returns, and written inside one it is not. -/
theorem step_durable_iff (hcfg : cfg.transactionPerBatch = true) {s t : Session α}
    {call : Call α} (hs : Numbered s.sink) (h : step cfg retry s call = some t) :
    Durable s call t ↔ (t.raised = none → OutsideTransaction s call) := by
  unfold Durable OutsideTransaction
  obtain ⟨method, script⟩ := call
  cases method with
  | writeBatch records =>
    refine forall_congr' (fun hr => ?_)
    have hrun := step_returned cfg retry h hr
    refine or_congr_right' (fun hne => ?_)
    cases hflag : s.sink.inTransaction with
    | false =>
      have hstart : ({ s.sink with script := script } : State α).inTransaction = false := hflag
      have hd : SentCommitted records { s.sink with script := script } t.sink :=
        (exits_writeBatch cfg retry hcfg hstart).of_ok hrun
      exact iff_of_true hd rfl
    | true =>
      have hstart : ({ s.sink with script := script } : State α).inTransaction = true := hflag
      have he : Extends records { s.sink with script := script } t.sink :=
        (exits_writeBatch_of_inTransaction cfg retry hstart).of_ok hrun
      have hn : Numbered { s.sink with script := script } :=
        ⟨hs.committed, hs.openTransaction⟩
      have hd : ¬ SentCommitted records { s.sink with script := script } t.sink :=
        he.not_sentCommitted hn hne
      exact iff_of_false hd (by decide)
  | «open» => simp
  | write record => simp
  | flush => simp
  | close => simp

/-- Every call keeps the numbers in order. -/
theorem numbered_step {s t : Session α} {call : Call α} (hs : Numbered s.sink)
    (h : step cfg retry s call = some t) : Numbered t.sink :=
  step_keeps cfg retry (fun _ _ h => ⟨h.committed, h.openTransaction⟩)
    (numbered_run cfg retry) hs h

theorem numbered_initial : Numbered ({} : Session α).sink where
  committed k hk := by cases hk
  openTransaction k hk := by cases hk

/-- **Batches in transactions of their own are durable** in every run in which
each is written while the sink is in none. The converse says that nothing less
will do: in a run whose returning batches are all durable, each of them found
the sink in no transaction. -/
theorem writeBatch_durable (hcfg : cfg.transactionPerBatch = true) (calls : List (Call α)) :
    (AllSteps (step cfg retry) (fun s call _ => OutsideTransaction s call) {} calls →
      AllSteps (step cfg retry) Durable {} calls)
    ∧ (AllSteps (step cfg retry) Durable {} calls →
      AllSteps (step cfg retry)
        (fun s call t => t.raised = none → OutsideTransaction s call) {} calls) := by
  have hiff : AllSteps (step cfg retry) Durable {} calls ↔
      AllSteps (step cfg retry)
        (fun s call t => t.raised = none → OutsideTransaction s call) {} calls :=
    allSteps_congr (fun _ _ _ => numbered_step cfg retry)
      (fun _ _ _ => step_durable_iff cfg retry hcfg) numbered_initial calls
  have hweak : ∀ (s : Session α) (call : Call α) (t : Session α),
      OutsideTransaction s call → (t.raised = none → OutsideTransaction s call) :=
    fun _ _ _ ho _ => ho
  exact ⟨fun h => hiff.2 (h.mono hweak), hiff.1⟩

/-! ## A batch that is not -/

/-- Integers published in a transaction per batch, with the retry policy of a
sink that gives up at once. -/
def transactionalConfig : Config ℕ where
  routing := { topic := "orders", serializer := fun _ => [] }
  transactionalId := some "orders-sink"
  transactionPerBatch := true
  shouldRetry _ _ := false

/-- Two batches. The broker refuses the delivery of the first, which the commit
awaits; the second meets no failure. -/
def refusedThenAccepted : List (Call ℕ) :=
  [{ method := .open },
   { method := .writeBatch [1]
     script := [.ok, .ok, .ok, .ok, .raises (.exception "MessageSizeTooLargeError" "")] },
   { method := .writeBatch [2] }]

/-- **A batch that is written after a refused commit** goes into the old transaction, and is not
committed when the call returns. -/
theorem writeBatch_not_durable :
    ¬ AllSteps (step transactionalConfig (RetryAsync.upTo ℕ 2)) Durable {}
      refusedThenAccepted := by
  decide

/-- The law at work: a batch, a flush and another batch. -/
theorem writeBatch_durable_twoBatches :
    AllSteps (step transactionalConfig (RetryAsync.upTo ℕ 2)) Durable {}
      [{ method := .open }, { method := .writeBatch [1, 2] }, { method := .flush },
       { method := .writeBatch [3] }] :=
  (writeBatch_durable transactionalConfig (RetryAsync.upTo ℕ 2) rfl _).1 (by decide)

end KafkaSink

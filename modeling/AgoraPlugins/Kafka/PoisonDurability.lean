import AgoraPlugins.Kafka.SinkDurability
import AgoraPlugins.Kafka.SourceSteps

/-!
# Whether the put of a poison record has been confirmed

Under the policy that puts poison on a dead letter queue and goes on, a record is dropped when the
write of its put returns, and a commit may cover it from then on. With `KafkaDLQSink` a write
returns when the put is in the queue of deliveries, and the broker's answer is waited for later, if
at all: by another write for which the queue is full, or when the sink is closed. So a commit may
cover a record whose put the broker has yet to accept, and one whose put it has refused in a call
that was about another record.

A put that was counted as written is lost only by a call that meets it in the queue: one that gets a
refusal, an aborted transaction, or a `close`. So where nothing of this happens and no commit is
issued while a put is in the queue, each commit covers dropped records only whose put is confirmed
or has been counted as a failure (`durable_of_keepsPuts`).
-/

open Effect Machine

/-! ## What a computation of the sink loses -/

/-- No reply of the script raises. -/
def Quiet (script : List Reply) : Prop := ∀ r ∈ script, r = .ok

instance : DecidablePred Quiet := fun _ => inferInstanceAs (Decidable (∀ _ ∈ _, _))

namespace KafkaSink

variable {α β : Type}

/-- The deliveries that are waited for. -/
def awaited (s : State α) : List ℕ := s.pendingAcks.map Delivery.id

/-- A delivery that is out of the queue and has not been confirmed. -/
def Lost (s : State α) (id : ℕ) : Prop := id ∈ s.failed ∨ id ∈ s.discarded

/-- **What is lost was in the queue or is new**; and it was not in the queue unless deliveries `may`
be dropped or some reply raises. -/
structure Traces (may : Prop) (s t : State α) : Prop where
  nextDelivery : s.nextDelivery ≤ t.nextDelivery
  quiet : ¬ may → Quiet s.script → Quiet t.script
  awaited : ∀ id ∈ awaited t, id ∈ awaited s ∨ s.nextDelivery ≤ id ∧ id < t.nextDelivery
  lost : ∀ id, Lost t id → Lost s id ∨ (id ∈ KafkaSink.awaited s ∧ (may ∨ ¬ Quiet s.script))
    ∨ s.nextDelivery ≤ id ∧ id < t.nextDelivery

instance (may : Prop) : IsPreorder (State α) (Traces may) where
  refl _ := ⟨Nat.le_refl _, fun _ h => h, fun _ => .inl, fun _ => .inl⟩
  trans s t u h h' := by
    have hnew : ∀ id, t.nextDelivery ≤ id ∧ id < u.nextDelivery →
        s.nextDelivery ≤ id ∧ id < u.nextDelivery :=
      fun id hid => ⟨Nat.le_trans h.nextDelivery hid.1, hid.2⟩
    have hold : ∀ id, s.nextDelivery ≤ id ∧ id < t.nextDelivery →
        s.nextDelivery ≤ id ∧ id < u.nextDelivery :=
      fun id hid => ⟨hid.1, Nat.lt_of_lt_of_le hid.2 h'.nextDelivery⟩
    refine ⟨Nat.le_trans h.nextDelivery h'.nextDelivery,
      fun hmay hs => h'.quiet hmay (h.quiet hmay hs), fun id hid => ?_, fun id hid => ?_⟩
    · rcases h'.awaited id hid with hid | hid
      · exact (h.awaited id hid).imp_right (hold id)
      · exact .inr (hnew id hid)
    · rcases h'.lost id hid with hid | ⟨hid, hwhy⟩ | hid
      · exact (h.lost id hid).imp_right (Or.imp_right (hold id))
      · have hwhy : may ∨ ¬ Quiet s.script := by
          by_cases hmay : may
          · exact .inl hmay
          · exact .inr (fun hs => (hwhy.resolve_left hmay) (h.quiet hmay hs))
        rcases h.awaited id hid with hid | hid
        · exact .inr (.inl ⟨hid, hwhy⟩)
        · exact .inr (.inr (hold id hid))
      · exact .inr (.inr (hnew id hid))

/-- What leaves the queue alone loses nothing. -/
theorem Traces.of_apart {may : Prop} {s t : State α} (h : Apart s t)
    (hquiet : ¬ may → Quiet s.script → Quiet t.script) : Traces may s t where
  nextDelivery := Nat.le_of_eq h.nextDelivery.symm
  quiet := hquiet
  awaited id hid := by
    unfold KafkaSink.awaited at hid
    rw [h.pendingAcks] at hid
    exact .inl hid
  lost id hid := by
    unfold Lost at hid
    rw [h.failed, h.discarded] at hid
    exact .inl hid

/-- The script stays quiet. -/
abbrev StaysQuiet (m : SinkM α β) : Prop := Respects (Keeps (fun s => Quiet s.script)) m

/-- What leaves the queue alone, and a quiet script quiet, loses nothing. -/
theorem traces_of_apart {may : Prop} {m : SinkM α β} (h : Respects Apart m) (hm : StaysQuiet m) :
    Respects (Traces may) m :=
  fun s => ((h s).and (hm s)).mono (fun _ _ ht => .of_apart ht.1 (fun _ => ht.2))

/-- Where deliveries may be dropped the script does not matter. -/
theorem traces_of_apart_of_may {may : Prop} (hmay : may) {m : SinkM α β} (h : Respects Apart m) :
    Respects (Traces may) m :=
  h.mono (fun _ _ ht => .of_apart ht (fun hno => absurd hmay hno))

/-- **A wait returns** if the script has no failure left in it. -/
theorem ensures_await_of_quiet {s : State α} (hs : Quiet s.script) :
    Ensures (await : SinkM α PUnit) s (fun r t => r = .ok ⟨⟩ ∧ Quiet t.script) := by
  unfold await
  rw [ensures_bind, ensures_get]
  cases hscript : s.script with
  | nil =>
    simp only [hscript]
    exact ⟨rfl, hs⟩
  | cons reply script =>
    rw [hscript] at hs
    cases reply with
    | ok =>
      simp only [hscript]
      exact ⟨rfl, fun r hr => hs r (List.mem_cons_of_mem _ hr)⟩
    | raises e => cases hs _ List.mem_cons_self

theorem staysQuiet_await : StaysQuiet (await : SinkM α PUnit) := by
  intro s
  by_cases hs : Quiet s.script
  · exact (ensures_await_of_quiet hs).mono (fun _ _ h _ => h.2)
  · exact ensures_await (fun _ h => absurd h hs) (fun _ _ h => absurd h hs)

/-- The check for a producer uses up no reply. -/
theorem staysQuiet_requireProducer : StaysQuiet (requireProducer : SinkM α PUnit) :=
  fun _ => ensures_requireProducer (fun _ => id) (fun _ => id)

theorem staysQuiet_issueSend (record : α) (message : ResolvedKafkaSinkMessage) :
    StaysQuiet (issueSend record message) := by
  unfold issueSend
  cases message.value with
  | none => exact respects_throw _
  | some _ => exact staysQuiet_await.bind (fun _ => respects_modify (fun _ => id))

variable (cfg : Config α) (retry : RetryAsync α)

theorem staysQuiet_sendWithRetry (record : α) (message : ResolvedKafkaSinkMessage) :
    StaysQuiet (sendWithRetry retry record message) := by
  have hsend : StaysQuiet (retry.run (issueSend record message)) :=
    Attempts.respects (staysQuiet_issueSend record message) (retry.attempts _)
  exact staysQuiet_requireProducer.bind (fun _ => hsend.bind (fun _ => respects_get.bind
    (fun _ => (respects_modify (fun _ => id)).bind (fun _ => respects_pure _))))

/-- Where no reply raises a delivery is confirmed. -/
theorem ensures_confirm_of_quiet (delivery : Delivery α) {s : State α} (hs : Quiet s.script) :
    Ensures (confirm cfg retry delivery) s (fun r t => r = .ok ⟨⟩ ∧ Quiet t.script) := by
  have hawait : Ensures (awaitDelivery delivery.id) s (fun r t => r = .ok ⟨⟩ ∧ Quiet t.script) := by
    unfold awaitDelivery
    refine (ensures_await_of_quiet hs).bind (fun _ t h => ?_) (fun _ _ h => ?_)
    · exact ⟨rfl, h.2⟩
    · cases h.1
  unfold confirm
  rw [ensures_tryCatch, ensures_tryCatch]
  refine hawait.mono (fun r t h => ?_)
  obtain ⟨rfl, ht⟩ := h
  exact ⟨rfl, ht⟩

/-- **Waiting for the oldest delivery** loses it if it is refused. -/
theorem traces_awaitOldestAck {may : Prop} :
    Respects (Traces may) (awaitOldestAck cfg retry) := by
  intro s
  cases hp : s.pendingAcks with
  | nil =>
    rw [ensures_awaitOldestAck_nil cfg retry hp]
    exact refl_of (Traces may) s
  | cons delivery pendingAcks =>
    rw [ensures_awaitOldestAck_cons cfg retry hp]
    have hin : ∀ id ∈ pendingAcks.map Delivery.id, id ∈ awaited s := by
      intro id hid
      unfold awaited
      rw [hp]
      exact List.mem_cons_of_mem _ hid
    have hconfirm := exits_confirm cfg retry delivery { s with pendingAcks := pendingAcks }
    -- only a reply that raises can refuse the delivery that has left the queue
    by_cases hs : Quiet s.script
    · have hquiet := ensures_confirm_of_quiet cfg retry delivery
        (s := { s with pendingAcks := pendingAcks }) hs
      refine (hconfirm.and hquiet).mono (fun r t h => ?_)
      obtain ⟨hr, rfl, ht⟩ := h
      have ha : Apart { s with pendingAcks := pendingAcks } t := hr.1
      refine ⟨Nat.le_of_eq ha.nextDelivery.symm, fun _ _ => ht, fun id hid => ?_,
        fun id hid => ?_⟩
      · unfold awaited at hid
        rw [ha.pendingAcks] at hid
        exact .inl (hin id hid)
      · unfold Lost at hid
        rw [ha.failed, ha.discarded] at hid
        exact .inl hid
    · refine hconfirm.mono (fun r t h => ?_)
      obtain ⟨u, ha, hpending, hdiscarded, hnext, hfailed⟩ :
          ∃ u, Apart { s with pendingAcks := pendingAcks } u ∧ t.pendingAcks = u.pendingAcks
            ∧ t.discarded = u.discarded ∧ t.nextDelivery = u.nextDelivery
            ∧ ∀ id ∈ t.failed, id ∈ u.failed ∨ id = delivery.id := by
        cases r with
        | ok _ => exact ⟨t, h.1, rfl, rfl, rfl, fun _ => .inl⟩
        | error e =>
          obtain ⟨u, ha, rfl⟩ := h
          refine ⟨u, ha, rfl, rfl, rfl, fun id hid => ?_⟩
          exact (List.mem_append.1 hid).imp_right List.mem_singleton.1
      refine ⟨Nat.le_of_eq (hnext.trans ha.nextDelivery).symm, fun _ hq => absurd hq hs,
        fun id hid => ?_, fun id hid => ?_⟩
      · unfold awaited at hid
        rw [hpending, ha.pendingAcks] at hid
        exact .inl (hin id hid)
      · rcases hid with hid | hid
        · rcases hfailed id hid with hid | rfl
          · rw [ha.failed] at hid
            exact .inl (.inl hid)
          · refine .inr (.inl ⟨?_, .inr hs⟩)
            unfold awaited
            rw [hp]
            exact List.mem_cons_self
        · rw [hdiscarded, ha.discarded] at hid
          exact .inl (.inr hid)

/-- By induction on how many acknowledgements are left. -/
theorem traces_drainLoop {may : Prop} :
    ∀ n, Respects (Traces may) (drainLoop cfg retry n)
  | 0 => respects_pure _
  | n + 1 => by
    unfold drainLoop
    refine respects_get.bind (fun s => ?_)
    by_cases hs : s.pendingAcks = []
    · rw [if_pos hs]
      exact respects_pure _
    · rw [if_neg hs]
      exact (traces_awaitOldestAck cfg retry).bind (fun _ => traces_drainLoop n)

/-- All acknowledgements are waited for. -/
theorem traces_drainPendingAcks {may : Prop} :
    Respects (Traces may) (drainPendingAcks cfg retry) :=
  respects_get.bind (fun _ => traces_drainLoop cfg retry _)

/-- **A delivery joins the queue.** -/
theorem traces_sendAndPark {may : Prop} (record : α) (message : ResolvedKafkaSinkMessage) :
    Respects (Traces may) (do
      let delivery ← sendWithRetry retry record message
      park cfg retry delivery) := by
  intro s
  refine ((ensures_sendWithRetry retry record message s).and
    (staysQuiet_sendWithRetry retry record message s)).bind (fun delivery t h => ?_)
    (fun _ _ h => .of_apart h.1 (fun _ => h.2))
  obtain ⟨⟨hid, _, u, ha, rfl⟩, hquiet⟩ := h
  unfold park
  rw [ensures_bind, ensures_modify]
  have hqueued : Traces may s { u with
      nextDelivery := u.nextDelivery + 1
      pendingAcks := u.pendingAcks ++ [delivery] } := by
    have hnext := ha.nextDelivery
    refine ⟨?_, fun _ => hquiet, fun id hmem => ?_, fun id hmem => ?_⟩
    · show s.nextDelivery ≤ u.nextDelivery + 1
      omega
    · have hmem : id ∈ (u.pendingAcks ++ [delivery]).map Delivery.id := hmem
      rw [List.map_append, List.mem_append, ha.pendingAcks] at hmem
      refine hmem.imp (fun h => h) (fun h => ?_)
      have h : id = delivery.id := List.mem_singleton.1 h
      show s.nextDelivery ≤ id ∧ id < u.nextDelivery + 1
      omega
    · have hmem : id ∈ u.failed ∨ id ∈ u.discarded := hmem
      rw [ha.failed, ha.discarded] at hmem
      exact .inl hmem
  have hrest : Respects (Traces may) (do
      if cfg.maxPendingAcks ≤ (← get).pendingAcks.length then awaitOldestAck cfg retry
      else pure ⟨⟩) := by
    refine respects_get.bind (fun v => ?_)
    by_cases hv : cfg.maxPendingAcks ≤ v.pendingAcks.length
    · rw [if_pos hv]
      exact traces_awaitOldestAck cfg retry
    · rw [if_neg hv]
      exact respects_pure _
  exact (hrest _).mono (fun _ v hv => trans_of (Traces may) hqueued hv)

theorem traces_enqueueSend {may : Prop} (record : α) :
    Respects (Traces may) (enqueueSend cfg retry record) :=
  (traces_of_apart apart_requireProducer staysQuiet_requireProducer).bind (fun _ =>
    (traces_of_apart apart_await staysQuiet_await).bind (fun _ =>
      traces_sendAndPark cfg retry record _))

/-- **All records of a batch**, without a transaction. -/
theorem traces_writeBatchUnwrapped {may : Prop} (records : List α) :
    Respects (Traces may) (writeBatchUnwrapped cfg retry records) := by
  have hawait : Respects (Traces may) (await : SinkM α PUnit) :=
    traces_of_apart apart_await staysQuiet_await
  unfold writeBatchUnwrapped
  by_cases hm : cfg.routing.messageFn.isSome
  · rw [if_pos hm]
    exact respects_forM (traces_enqueueSend cfg retry) records
  · rw [if_neg hm]
    exact (respects_forM (fun _ => hawait) records).bind (fun _ => respects_forM (fun record =>
      hawait.bind (fun _ => traces_sendAndPark cfg retry record _)) records)

/-! ## What drops deliveries -/

section May

variable {may : Prop} (hmay : may)
include hmay

/-- The acknowledgements are forgotten. -/
theorem traces_clearPendingAcks : Respects (Traces may) (clearPendingAcks : SinkM α PUnit) := by
  refine respects_modify (fun s => ⟨Nat.le_refl _, fun hno => absurd hmay hno, nofun,
    fun id hid => ?_⟩)
  rcases hid with hid | hid
  · exact .inl (.inl hid)
  · rcases List.mem_append.1 hid with hid | hid
    · exact .inl (.inr hid)
    · exact .inr (.inl ⟨hid, .inl hmay⟩)

theorem traces_abortTransaction :
    Respects (Traces may) (abortTransaction : SinkM α PUnit) :=
  (traces_of_apart_of_may hmay apart_requireProducer).bind (fun _ =>
    (traces_clearPendingAcks hmay).bind (fun _ =>
      traces_of_apart_of_may hmay (apart_setTransaction _ false)))

theorem traces_commitTransaction : Respects (Traces may) (commitTransaction cfg retry) :=
  (traces_of_apart_of_may hmay apart_requireProducer).bind (fun _ =>
    (traces_drainPendingAcks cfg retry).bind (fun _ =>
      traces_of_apart_of_may hmay (apart_setTransaction _ false)))

theorem traces_beginTransaction : Respects (Traces may) (beginTransaction : SinkM α PUnit) :=
  traces_of_apart_of_may hmay apart_beginTransaction

/-- So a transaction leaves the traces of its body. -/
theorem traces_transaction {body : SinkM α PUnit} (hbody : Respects (Traces may) body) :
    Respects (Traces may) (transaction cfg retry body) := by
  unfold transaction
  refine (traces_beginTransaction hmay).bind (fun _ => (hbody.tryCatch (fun e => ?_)).bind
    (fun _ => traces_commitTransaction cfg retry hmay))
  cases e.isException with
  | false => exact respects_throw e
  | true => exact (traces_abortTransaction hmay).bind (fun _ => respects_throw e)

theorem traces_flush : Respects (Traces may) (flush cfg retry) := by
  unfold flush
  refine respects_get.bind (fun s => ?_)
  cases s.producer with
  | false => exact respects_pure _
  | true =>
    refine (traces_drainPendingAcks cfg retry).bind (fun _ => traces_of_apart_of_may hmay ?_)
    exact Attempts.respects apart_await (retry.attempts await)

theorem traces_stopProducer : Respects (Traces may) (stopProducer : SinkM α PUnit) := by
  refine Respects.bind (respects_modify (fun s => ?_)) (fun _ =>
    (traces_of_apart_of_may hmay apart_await).ensuring (traces_clearPendingAcks hmay))
  exact ⟨Nat.le_refl _, fun hno => absurd hmay hno, fun _ => .inl, fun _ => .inl⟩

/-- **Closing may drop what is waited for.** -/
theorem traces_close : Respects (Traces may) (close cfg retry) := by
  unfold close
  refine Respects.ensuring (respects_get.bind (fun s => ?_))
    (traces_of_apart_of_may hmay (apart_closeSerializer cfg))
  cases s.producer with
  | false => exact respects_pure _
  | true =>
    refine Respects.ensuring (respects_get.bind (fun s => ?_)) (traces_stopProducer hmay)
    cases s.inTransaction with
    | true => exact traces_abortTransaction hmay
    | false => exact traces_flush cfg retry hmay

end May

/-- **`write`.** -/
theorem traces_write {may : Prop} (record : α) :
    Respects (Traces may) (write cfg retry record) := by
  unfold write
  refine respects_get.bind (fun s => ?_)
  cases s.producer with
  | true => exact traces_enqueueSend cfg retry record
  | false => exact respects_throw _

/-- **A batch may drop what is waited for** if it has a transaction of its own. -/
theorem traces_writeBatch (records : List α) :
    Respects (Traces (cfg.transactionPerBatch = true)) (writeBatch cfg retry records) := by
  have hbody : ∀ {may : Prop}, Respects (Traces may) (writeBatchUnwrapped cfg retry records) :=
    traces_writeBatchUnwrapped cfg retry records
  unfold writeBatch
  refine (traces_of_apart apart_requireProducer staysQuiet_requireProducer).bind (fun _ =>
    respects_get.bind (fun s => ?_))
  cases ht : cfg.transactionPerBatch with
  | false => exact hbody
  | true =>
    cases s.inTransaction with
    | true => exact hbody
    | false => exact traces_transaction cfg retry rfl hbody

end KafkaSink

/-! ## The puts of the poison controller -/

/-- **A put that was counted as written is still waited for.** -/
def PoisonState.AwaitsPut (p : PoisonState) : Prop :=
  ∃ put ∈ p.puts, ∃ id ∈ put.2, id ∈ KafkaSink.awaited p.sink

instance : DecidablePred PoisonState.AwaitsPut := fun _ =>
  inferInstanceAs (Decidable (∃ put ∈ _, ∃ id ∈ _, _))

/-- **The puts are accounted for**: the deliveries of those that were counted as written have been
made and are not lost, and those that were not are counted as failures. -/
structure PoisonState.Sound (p : PoisonState) : Prop where
  tracked : KafkaSink.Tracked p.sink
  made : ∀ id, id ∈ KafkaSink.awaited p.sink ∨ KafkaSink.Lost p.sink id → id < p.sink.nextDelivery
  kept : ∀ put ∈ p.puts, ∀ id ∈ put.2, id < p.sink.nextDelivery ∧ ¬ KafkaSink.Lost p.sink id
  counted : p.dlqWriteFailureCount = (p.puts.filter (fun put => put.2.isNone)).length

namespace Poison

variable {p q : PoisonState} {may : Prop}

/-- **The sink has gone on**, and has not lost what is waited for. -/
theorem sound_of_traces (hp : p.Sound) (ht : KafkaSink.Traces may p.sink q.sink)
    (ha : KafkaSink.Accounted p.sink q.sink)
    (hguard : p.AwaitsPut → ¬ may ∧ Quiet p.sink.script) (hputs : q.puts = p.puts)
    (hcount : q.dlqWriteFailureCount = p.dlqWriteFailureCount) : q.Sound where
  tracked := ha.tracked hp.tracked
  made id hid := by
    have hle := ht.nextDelivery
    have hold : id ∈ KafkaSink.awaited p.sink ∨ KafkaSink.Lost p.sink id →
        id < q.sink.nextDelivery := fun h => Nat.lt_of_lt_of_le (hp.made id h) hle
    rcases hid with hid | hid
    · rcases ht.awaited id hid with hid | hid
      · exact hold (.inl hid)
      · exact hid.2
    · rcases ht.lost id hid with hid | hid | hid
      · exact hold (.inr hid)
      · exact hold (.inl hid.1)
      · exact hid.2
  kept put hput id hid := by
    rw [hputs] at hput
    obtain ⟨hlt, hlost⟩ := hp.kept put hput id hid
    refine ⟨Nat.lt_of_lt_of_le hlt ht.nextDelivery, fun hl => ?_⟩
    rcases ht.lost id hl with hl | ⟨hawaited, hwhy⟩ | ⟨hnew, _⟩
    · exact hlost hl
    · obtain ⟨hmay, hquiet⟩ := hguard ⟨put, hput, id, hid, hawaited⟩
      exact hwhy.elim hmay (fun hno => hno hquiet)
    · omega
  counted := by
    rw [hputs, hcount]
    exact hp.counted

/-- The replies of a call do not matter to the account. -/
theorem sound_script (hp : p.Sound) (script : List Reply) :
    PoisonState.Sound { p with sink := { p.sink with script } } :=
  ⟨hp.tracked.script script, hp.made, hp.kept, hp.counted⟩

/-- **What a write of `n` puts does**: the sink has gone on, and if the write returns, by `n`
deliveries and without losing one. -/
structure Written (may : Prop) (n : ℕ) (p : PoisonState) (r : Except Exc PUnit) (q : PoisonState) :
    Prop where
  traces : KafkaSink.Traces may p.sink q.sink
  accounted : KafkaSink.Accounted p.sink q.sink
  advances : r = .ok ⟨⟩ → KafkaSink.Advances n p.sink q.sink
  puts : q.puts = p.puts
  count : q.dlqWriteFailureCount = p.dlqWriteFailureCount

variable (retry : KafkaSink.RetryAsync DLQRecord)

/-- A call of the sink that makes `n` deliveries. -/
theorem ensures_onSink {m : KafkaSink.SinkM DLQRecord PUnit} {n : ℕ}
    (ht : Respects (KafkaSink.Traces may) m) (ha : KafkaSink.Accounts n m) (p : PoisonState) :
    Ensures (onSink m) p (Written may n p) := by
  unfold onSink
  rw [ensures_zoom]
  refine ((ht p.sink).and (ha p.sink)).mono (fun r s h => ?_)
  cases r with
  | ok _ => exact ⟨h.1, h.2.accounted, fun _ => h.2, rfl, rfl⟩
  | error e => exact ⟨h.1, h.2, nofun, rfl, rfl⟩

/-- **A record that is written alone** is counted as one. -/
theorem ensures_dlqWrite (sink : KafkaSink.Config DLQRecord) (record : DLQRecord)
    (p : PoisonState) : Ensures (dlqWrite retry sink record) p (Written may 1 p) := by
  have hwrite : Ensures (onSink (KafkaSink.write sink retry record)) p (Written may 1 p) :=
    ensures_onSink (KafkaSink.traces_write sink retry record)
      (KafkaSink.accounts_write sink retry record) p
  unfold dlqWrite
  refine hwrite.bind (fun _ q h => ?_) (fun _ _ h => ?_)
  · exact ⟨h.traces, h.accounted, fun _ => h.advances rfl, h.puts, h.count⟩
  · exact ⟨h.traces, h.accounted, nofun, h.puts, h.count⟩

/-- **Records that are written in a batch** are counted one by one. -/
theorem ensures_dlqWriteBatch (sink : KafkaSink.Config DLQRecord) (records : List DLQRecord)
    (p : PoisonState) : Ensures (dlqWriteBatch retry sink records) p
      (Written (sink.transactionPerBatch = true) records.length p) := by
  unfold dlqWriteBatch
  by_cases hrecords : records = []
  · rw [if_pos hrecords, hrecords]
    have happart := refl_of (KafkaSink.Apart (α := DLQRecord)) p.sink
    exact ⟨.of_apart happart (fun _ h => h), happart.accounted, fun _ => happart.advances, rfl, rfl⟩
  · rw [if_neg hrecords]
    refine (ensures_onSink (KafkaSink.traces_writeBatch sink retry records)
      (KafkaSink.accounts_writeBatch sink retry records) p).bind (fun _ q h => ?_) (fun _ _ h => ?_)
    · exact ⟨h.traces, h.accounted, fun _ => h.advances rfl, h.puts, h.count⟩
    · exact ⟨h.traces, h.accounted, nofun, h.puts, h.count⟩

/-- **Opening the sink** loses nothing, since nothing is waited for before it. -/
theorem ensures_open (hp : p.Sound) (hproducer : p.sink.producer = false)
    (sink : KafkaSink.Config DLQRecord) :
    Ensures (onSink (KafkaSink.open sink)) p (fun _ q => q.Sound ∧ p.puts ⊆ q.puts) := by
  have hempty : p.sink.pendingAcks = [] := hp.tracked.closed hproducer
  have hnot : ¬ p.AwaitsPut := by
    rintro ⟨put, _, id, _, hid⟩
    unfold KafkaSink.awaited at hid
    rw [hempty] at hid
    cases hid
  unfold onSink
  rw [ensures_zoom]
  refine (KafkaSink.reopened_open sink _).mono (fun _ v hv => ⟨?_, List.Subset.refl _⟩)
  have htraces : KafkaSink.Traces True p.sink v := by
    refine ⟨Nat.le_of_eq hv.nextDelivery.symm, fun hno => absurd trivial hno, fun id hid => ?_,
      fun id hid => ?_⟩
    · unfold KafkaSink.awaited at hid
      rw [hv.pendingAcks] at hid
      exact .inl hid
    · unfold KafkaSink.Lost at hid
      rw [hv.failed, hv.discarded] at hid
      exact .inl hid
  exact sound_of_traces hp htraces (hv.advances hempty).accounted (fun ha => absurd ha hnot) rfl rfl

/-- **Closing the sink** may lose what is waited for. -/
theorem ensures_close (hp : p.Sound) (hnot : ¬ p.AwaitsPut) (sink : KafkaSink.Config DLQRecord) :
    Ensures (onSink (KafkaSink.close sink retry)) p (fun _ q => q.Sound ∧ p.puts ⊆ q.puts) := by
  unfold onSink
  rw [ensures_zoom]
  refine ((KafkaSink.traces_close sink retry trivial _).and
    (KafkaSink.accounted_close sink retry _)).mono (fun _ v hv => ⟨?_, List.Subset.refl _⟩)
  exact sound_of_traces hp hv.1 hv.2 (fun ha => absurd ha hnot) rfl rfl

variable {cfg : PoisonConfig}

/-- **What a capture does** under the policy that goes on: the puts there were are kept, and if it
returns there is one for each of the messages. -/
structure Captured (messages : List Fetched) (p : PoisonState) (r : Except Exc PUnit)
    (q : PoisonState) : Prop where
  sound : q.Sound
  puts : p.puts ⊆ q.puts
  put : r = .ok ⟨⟩ → ∀ f ∈ messages, ∃ put ∈ q.puts, put.1 = f.seq

/-- The put of a message that was written. -/
theorem mem_puts_written {messages : List Fetched} {first : ℕ} {put : ℕ × Option ℕ}
    (h : put ∈ (messages.zipIdx first).map (fun (f, id) => (f.seq, some id))) :
    ∃ id, put.2 = some id ∧ first ≤ id ∧ id < first + messages.length := by
  obtain ⟨⟨f, id⟩, hmem, rfl⟩ := List.mem_map.1 h
  obtain ⟨hle, hlt, _⟩ := List.mem_zipIdx hmem
  exact ⟨id, rfl, hle, hlt⟩

/-- Every message of the batch has its delivery. -/
theorem exists_put_written {messages : List Fetched} (first : ℕ) {f : Fetched}
    (hf : f ∈ messages) :
    ∃ put ∈ (messages.zipIdx first).map (fun (f, id) => (f.seq, some id)), put.1 = f.seq := by
  rw [← List.zipIdx_map_fst first messages] at hf
  obtain ⟨⟨g, id⟩, hmem, rfl⟩ := List.mem_map.1 hf
  exact ⟨(g.seq, some id), List.mem_map.2 ⟨(g, id), hmem, rfl⟩, rfl⟩

/-- **The puts of a write that returned** are the deliveries it made, and none of them is lost. -/
theorem sound_written {messages : List Fetched} (hp : p.Sound) (hq : q.Sound)
    (h : KafkaSink.Advances messages.length p.sink q.sink) (dlqWriteCount : ℕ) :
    PoisonState.Sound { q with
      dlqWriteCount
      puts := q.puts ++
        (messages.zipIdx p.sink.nextDelivery).map (fun (f, id) => (f.seq, some id)) } where
  tracked := hq.tracked
  made := hq.made
  kept put hput id hid := by
    rcases List.mem_append.1 hput with hput | hput
    · exact hq.kept put hput id hid
    · obtain ⟨id', hid', hle, hlt⟩ := mem_puts_written hput
      rw [hid'] at hid
      cases hid
      have hnext := h.nextDelivery
      refine ⟨by show id < q.sink.nextDelivery; omega, fun hlost => ?_⟩
      -- a write that returns loses nothing, and what was lost before has a smaller number
      have hlost : KafkaSink.Lost q.sink id := hlost
      unfold KafkaSink.Lost at hlost
      rw [h.failed, h.discarded] at hlost
      have hmade := hp.made id (.inr hlost)
      omega
  counted := by
    have hnone : ((messages.zipIdx p.sink.nextDelivery).map
        (fun (f, id) => (f.seq, some id))).filter (fun put => put.2.isNone) = [] := by
      refine List.filter_eq_nil_iff.2 (fun put hput => ?_)
      obtain ⟨id, hid, _⟩ := mem_puts_written hput
      rw [hid]
      exact Bool.false_ne_true
    show q.dlqWriteFailureCount = _
    rw [List.filter_append, hnone, List.append_nil]
    exact hq.counted

/-- **The puts of a write that raised** are counted as failures. -/
theorem sound_refused (messages : List Fetched) (hq : q.Sound) :
    PoisonState.Sound { q with
      dlqWriteFailureCount := q.dlqWriteFailureCount + messages.length
      puts := q.puts ++ messages.map (fun f => (f.seq, none)) } where
  tracked := hq.tracked
  made := hq.made
  kept put hput id hid := by
    rcases List.mem_append.1 hput with hput | hput
    · exact hq.kept put hput id hid
    · obtain ⟨f, _, rfl⟩ := List.mem_map.1 hput
      cases hid
  counted := by
    have hall : (messages.map (fun f => (f.seq, (none : Option ℕ)))).filter
        (fun put => put.2.isNone) = messages.map (fun f => (f.seq, none)) := by
      refine List.filter_eq_self.2 (fun put hput => ?_)
      obtain ⟨f, _, rfl⟩ := List.mem_map.1 hput
      rfl
    show q.dlqWriteFailureCount + messages.length = _
    rw [List.filter_append, hall, List.length_append, List.length_map, hq.counted]

/-- **Messages that are captured** have been put into the queue when the call returns, or their
failure has been counted. -/
theorem ensures_capture {write : PoisonM PUnit} {messages : List Fetched}
    (hpolicy : cfg.policy = .dlqAndContinue)
    (hwrite : ∀ p, Ensures write p (Written may messages.length p)) (hp : p.Sound)
    (hguard : p.AwaitsPut → ¬ may ∧ Quiet p.sink.script) :
    Ensures (capture cfg write messages) p (Captured messages p) := by
  unfold capture
  rw [ensures_bind, ensures_get]
  dsimp only
  rw [ensures_bind, ensures_tryCatch, ensures_bind]
  refine (hwrite p).mono (fun r q h => ?_)
  have hq : q.Sound := sound_of_traces hp h.traces h.accounted hguard h.puts h.count
  have hold : p.puts ⊆ q.puts := by
    rw [h.puts]
    exact List.Subset.refl _
  cases r with
  | ok _ =>
    rw [ensures_pure]
    dsimp only
    rw [if_pos rfl, ensures_modify]
    refine ⟨sound_written hp hq (h.advances rfl) _, fun put hput => ?_, fun _ f hf => ?_⟩
    · exact List.mem_append_left _ (hold hput)
    · obtain ⟨put, hput, hseq⟩ := exists_put_written p.sink.nextDelivery hf
      exact ⟨put, List.mem_append_right _ hput, hseq⟩
  | error e =>
    dsimp only
    cases he : e.isException with
    | false => exact ⟨hq, hold, nofun⟩
    | true =>
      rw [if_pos rfl]
      unfold handlePoisonDlqWriteError
      rw [ensures_bind, ensures_bind, ensures_modify]
      dsimp only
      -- under this policy the failure is counted and the capture returns
      rw [hpolicy, if_neg (by decide), ensures_pure]
      dsimp only
      rw [ensures_pure]
      dsimp only
      rw [if_neg Bool.false_ne_true, ensures_pure]
      refine ⟨sound_refused messages hq, fun put hput => ?_, fun _ f hf => ?_⟩
      · exact List.mem_append_left _ (hold hput)
      · exact ⟨(f.seq, none), List.mem_append_right _ (List.mem_map.2 ⟨f, hf, rfl⟩), rfl⟩

end Poison

namespace Source

variable {cfg : SourceConfig} {retry : KafkaSink.RetryAsync DLQRecord} {s t u : Source}
  {e : Event}

/-! ## The law -/

/-- Whether a commit that is issued now covers the record: by the offset it names for the partition,
or by the position of the consumer. -/
def CoversRecord (s : Source) (c : CommitCall) (f : Fetched) : Prop :=
  match c.request with
  | .offsets named => ∃ n ∈ (CommitRequest.offsets named).named, f.tp = n.1 ∧ f.offset < n.2
  | .consumed => f.tp ∈ s.operator.consumer.assignment
    ∧ f.offset < s.operator.consumer.position f.tp

instance (s : Source) : (c : CommitCall) → DecidablePred (s.CoversRecord c)
  | { request := .offsets _, .. }, _ => inferInstanceAs (Decidable (∃ _ ∈ _, _))
  | { request := .consumed, .. }, _ => inferInstanceAs (Decidable (_ ∧ _))

/-- **The put of a record is safe**: the broker has confirmed it, or it is counted as a failure. -/
def PutSafe (p : PoisonState) (f : Fetched) : Prop :=
  ∃ put ∈ p.puts, put.1 = f.seq ∧ ∀ id ∈ put.2, id ∈ p.sink.confirmed

instance (p : PoisonState) : DecidablePred (PutSafe p) := fun _ =>
  inferInstanceAs (Decidable (∃ _ ∈ _, _ ∧ ∀ _ ∈ _, _))

/-- **The commits a step issues cover dropped records only whose put is safe.** -/
def CommitsDurable (s t : Source) : Prop :=
  ∀ c ∈ s.issued t, ∀ f ∈ s.history.dropped, s.CoversRecord c f → PutSafe s.poison f

instance (s t : Source) : Decidable (CommitsDurable s t) :=
  inferInstanceAs (Decidable (∀ _ ∈ _, ∀ _ ∈ _, _))

/-- Whether an event leaves in the queue of the sink what is there, or has it confirmed: the sink is
not closed, and a capture gets no reply that raises and makes no transaction of its own. -/
def keepsQueue (cfg : SourceConfig) : Event → Bool
  | .captured script =>
    decide (Quiet script) && cfg.poison.sink.all (fun sink => !sink.transactionPerBatch)
  | .closePoisonSink _ => false
  | _ => true

/-- **What must be so before a step** while a put is waited for: no commit is issued, and the queue
is kept. -/
def KeepsPuts (cfg : SourceConfig) (s : Source) (e : Event) : Prop :=
  s.poison.AwaitsPut → s.issuesCommit cfg e = false ∧ keepsQueue cfg e = true

instance (s : Source) (e : Event) : Decidable (KeepsPuts cfg s e) :=
  inferInstanceAs (Decidable (_ → _))

/-! ## Captures -/

/-- **A capture accounts for its messages.** -/
theorem captured_capture {script : List Reply} {stage : String} {exc : Exc}
    (hpolicy : cfg.poison.policy = .dlqAndContinue) (hs : s.poison.Sound)
    (hguard : s.poison.AwaitsPut → keepsQueue cfg (.captured script) = true) :
    Ensures (s.capture cfg retry stage exc) (s.withScript script)
      (Poison.Captured (s.poisonMessages cfg) (s.withScript script)) := by
  have hp : (s.withScript script).Sound := Poison.sound_script hs script
  have hcaptures : cfg.poison.policy.capturesRecords = true := by rw [hpolicy]; rfl
  obtain ⟨sink, hsink⟩ := Option.ne_none_iff_exists'.1 (cfg.poison.sink_of_captures hcaptures)
  have hquiet : s.poison.AwaitsPut → Quiet script ∧ sink.transactionPerBatch = false := by
    intro h
    have hkeeps := hguard h
    unfold keepsQueue at hkeeps
    rw [hsink, Bool.and_eq_true, decide_eq_true_eq, Option.all_some, Bool.not_eq_true'] at hkeeps
    exact hkeeps
  unfold capture
  by_cases hbatch : cfg.hasBatchDeserializer = true
  · have hmessages : s.poisonMessages cfg = s.batch := if_pos hbatch
    rw [if_pos hbatch, hmessages]
    unfold Poison.capturePoisonBatch
    rw [if_pos hcaptures, hsink]
    have hwrites : ∀ p, Ensures (Poison.dlqWriteBatch retry sink
        (s.batch.map (fun f => Poison.buildPoisonDlqRecord cfg.poison exc f.record stage))) p
        (Poison.Written (sink.transactionPerBatch = true) s.batch.length p) := by
      intro p
      have hwrite := Poison.ensures_dlqWriteBatch retry sink
        (s.batch.map (fun f => Poison.buildPoisonDlqRecord cfg.poison exc f.record stage)) p
      rw [List.length_map] at hwrite
      exact hwrite
    refine Poison.ensures_capture hpolicy hwrites hp (fun h => ?_)
    rw [(hquiet h).2]
    exact ⟨Bool.false_ne_true, (hquiet h).1⟩
  · have hmessages : s.poisonMessages cfg = s.batch.take 1 := if_neg hbatch
    rw [if_neg hbatch, hmessages]
    cases s.batch with
    | nil => exact ⟨hp, List.Subset.refl _, fun _ _ hf => nomatch hf⟩
    | cons f rest =>
      unfold Poison.capturePoisonRecord
      dsimp only
      rw [if_pos hcaptures, hsink]
      exact Poison.ensures_capture hpolicy (Poison.ensures_dlqWrite retry sink _) hp
        (fun h => ⟨not_false, (hquiet h).1⟩)

/-! ## One step -/

/-- **Every dropped record has a put**, and the puts are accounted for. -/
structure Kept (s : Source) : Prop where
  sound : s.poison.Sound
  put : ∀ f ∈ s.history.dropped, ∃ put ∈ s.poison.puts, put.1 = f.seq

/-- What is kept depends on the captures and the dropped records only. -/
theorem Kept.of_eq (hs : Kept s) (hpoison : t.poison = s.poison)
    (hdropped : t.history.dropped = s.history.dropped) : Kept t where
  sound := by
    rw [hpoison]
    exact hs.sound
  put := by
    rw [hpoison, hdropped]
    exact hs.put

theorem Kept.of_books (hs : Kept s) (h : t.toBooks = s.toBooks) : Kept t :=
  hs.of_eq (congrArg Books.poison h) (congrArg (fun b => b.history.dropped) h)

/-- The start of a stream captures nothing. -/
theorem Kept.bootstraps (hs : Kept s) (h : Bootstraps s t) : Kept t := by
  have hpoison := congrArg Books.poison h.books
  have hdropped := congrArg (fun b => b.history.dropped) h.books
  exact hs.of_eq hpoison hdropped

/-- A probe fetches a record, which is neither captured nor dropped by it. -/
theorem Kept.of_probe (hs : Kept s) {message : Option ConsumerRecord}
    (hprobe : s.probe message = some u) : Kept u := by
  obtain ⟨fs, hfs, _⟩ := probe_fetches hprobe
  rw [hfs.eq]
  exact hs.of_eq rfl rfl

/-- A probe of the stream's is answered, and its bootstrap goes on. -/
theorem Kept.probed (hs : Kept s) {message : Option ConsumerRecord}
    (hprobe : s.probe message = some u) (h : Bootstraps u.syncAssignment t) : Kept t := by
  have hu : Kept u.syncAssignment := (hs.of_probe hprobe).of_eq rfl rfl
  exact hu.bootstraps h

/-- The controller has gone on, and nothing else. -/
theorem Kept.of_puts (hs : Kept s) (hsound : t.poison.Sound) (hputs : s.poison.puts ⊆ t.poison.puts)
    (hdropped : t.history.dropped = s.history.dropped) : Kept t where
  sound := hsound
  put f hf := by
    rw [hdropped] at hf
    obtain ⟨put, hput, hseq⟩ := hs.put f hf
    exact ⟨put, hputs hput, hseq⟩

/-- **A commit that is called** drops no message: whatever is dropped was put before. -/
theorem Kept.callCommit (hs : Kept s) (caller : Caller) : Kept (s.callCommit cfg caller) :=
  hs.of_books (toBooks_callCommit caller)

/-- **Messages that are dropped** were captured before. -/
theorem Kept.dropMessages (hs : Kept s) (messages : List Fetched) :
    Kept (s.dropMessages cfg messages) := by
  rw [dropMessages_eq]
  exact hs.of_eq rfl rfl

/-- An acknowledgement is one of a record that was no poison. -/
theorem Kept.acknowledgeDelivery (hs : Kept s) (i : ℕ) (d : Delivery) (caller : Caller) :
    Kept (s.acknowledgeDelivery cfg i d caller) := by
  refine Kept.of_books ?_ (toBooks_acknowledgeDelivery i d caller)
  exact hs.of_eq rfl rfl

theorem Kept.commitReturns (hs : Kept s) (caller : Caller) : Kept (s.commitReturns caller) := by
  cases caller <;> exact hs.of_eq rfl rfl

theorem Kept.commitRaises (hs : Kept s) (caller : Caller) : Kept (s.commitRaises caller) := by
  cases caller <;> exact hs.of_eq rfl rfl

theorem Kept.finishSeekToOffsets (hs : Kept s) (offsets : OffsetMap) :
    Kept (s.syncAssignment.finishSeekToOffsets offsets) := by
  rcases finishSeekToOffsets_cases s.syncAssignment offsets with heq | ⟨_, _, heq⟩ <;> rw [heq] <;>
    exact hs.of_eq rfl rfl

theorem Kept.beginSeek (hs : Kept s) (partitions : Option (Finset TopicPartition)) :
    Kept (s.syncAssignment.beginSeek partitions) := by
  rcases beginSeek_cases s.syncAssignment partitions with heq | ⟨_, heq⟩ <;> rw [heq] <;>
    exact hs.of_eq rfl rfl

/-- **Poison is dropped** once there is a put for each message. -/
theorem Kept.poisonCaptured (hs : Kept s)
    (hput : ∀ f ∈ s.poisonMessages cfg, ∃ put ∈ s.poison.puts, put.1 = f.seq) :
    Kept (s.poisonCaptured cfg) := by
  unfold Source.poisonCaptured
  dsimp only
  split
  · apply Kept.callCommit
    apply Kept.dropMessages
    refine ⟨hs.sound, fun f hf => ?_⟩
    rcases List.mem_append.1 hf with hf | hf
    · exact hs.put f hf
    · exact hput f hf
  · obtain ⟨_, _, heq⟩ :=
      (s.takePoison (s.poisonMessages cfg)).cursor.exists_currentCheckpoint_eq
    rw [heq]
    exact hs.of_eq rfl rfl

/-- **One step keeps account of the puts.** -/
theorem kept_step (hpolicy : cfg.poison.policy = .dlqAndContinue) (hs : Kept s)
    (hk : KeepsPuts cfg s e) (h : s.step cfg retry e = some t) : Kept t := by
  have hcaptures : cfg.poison.policy.capturesRecords = true := by rw [hpolicy]; rfl
  cases step_reacts h with
  | idles _ h => exact hs.of_books h.books
  | @opensPoisonSink script sink _ hproducer _ =>
    have hopen := (Poison.ensures_open (Poison.sound_script hs.sound script) hproducer
      sink).finalState
    exact hs.of_puts hopen.1 hopen.2 rfl
  | @closesPoisonSink script sink =>
    have hclose := (Poison.ensures_close retry (Poison.sound_script hs.sound script)
      (fun ha => Bool.false_ne_true (hk ha).2) sink).finalState
    exact hs.of_puts hclose.1 hclose.2 rfl
  | errs _ _ _ _ _ hu hbooks h =>
    refine hs.of_eq ?_ ?_
    · have hpoison := congrArg Books.poison (h.books.trans hbooks)
      refine hpoison.trans (hu.trans ?_)
      unfold Poison.observePoisonRecords
      rw [hpolicy]
    · exact congrArg (fun b => b.history.dropped) (h.books.trans hbooks)
  | starts =>
    have hreset : Kept s.resetForStream := hs.of_eq rfl rfl
    exact hreset.bootstraps (bootstraps_startStream s)
  | refreshes _ hprobe => exact hs.probed hprobe (bootstraps_applyInitialPositioning _)
  | positions _ hprobe => exact hs.probed hprobe (bootstraps_seekAndStart _)
  | receives _ hfetch hne =>
    rw [receive_of_ne_nil hne, (fetchAll_fetches hfetch).eq]
    exact hs.of_eq rfl rfl
  | @captures script stage exc _ _ hraises =>
    have hcaptured : Ensures (s.capture cfg retry stage exc) (s.withScript script)
        (Poison.Captured (s.poisonMessages cfg) (s.withScript script)) :=
      captured_capture hpolicy hs.sound (fun ha => (hk ha).2)
    obtain ⟨_, hdone⟩ := hcaptured.finalState_of_raises hraises
    have hrun : Kept (s.runPoison script (s.capture cfg retry stage exc)) :=
      hs.of_puts hdone.sound hdone.puts rfl
    exact hrun.poisonCaptured (hdone.put rfl)
  | @captureFails script stage exc =>
    have hcaptured : Ensures (s.capture cfg retry stage exc) (s.withScript script)
        (Poison.Captured (s.poisonMessages cfg) (s.withScript script)) :=
      captured_capture hpolicy hs.sound (fun ha => (hk ha).2)
    have hdone := (hcaptured.mono (fun _ q h => And.intro h.sound h.puts)).finalState
    exact (hs.of_puts hdone.1 hdone.2 rfl : Kept (s.runPoison script _)).of_eq rfl rfl
  | drops _ _ _ hno =>
    rw [hcaptures] at hno
    cases hno
  | passesOver => exact (hs.of_eq rfl rfl : Kept s.clearActiveDelivery).acknowledgeDelivery _ _ _
  | acknowledges => exact hs.acknowledgeDelivery _ _ _
  | @committed i c =>
    have hu : Kept ((s.dropCommit i).recordCommit c.request) := hs.of_eq rfl rfl
    exact hu.commitReturns c.caller
  | @commitFailed i c =>
    have hu : Kept (s.dropCommit i) := hs.of_eq rfl rfl
    exact hu.commitRaises c.caller
  | beginsSeek => exact hs.beginSeek _
  | seeks => exact hs.finishSeekToOffsets _
  | @probesForSeek i _ _ _ _ hprobe =>
    have hdropped : Kept (s.dropCall i) := hs.of_eq rfl rfl
    exact (hdropped.of_probe hprobe).finishSeekToOffsets _
  | @probesToBeginSeek i _ _ _ _ hprobe =>
    have hdropped : Kept (s.dropCall i) := hs.of_eq rfl rfl
    exact (hdropped.of_probe hprobe).beginSeek _
  | _ => exact hs.of_eq rfl rfl

/-! ## Runs -/

/-- **One step commits dropped records only whose put is safe.** -/
theorem commitsDurable_step (hs : Kept s) (hk : KeepsPuts cfg s e)
    (h : s.step cfg retry e = some t) : CommitsDurable s t := by
  intro c hc f hf _
  rcases issued_step h with hnone | ⟨hissues, _, _, _⟩
  · rw [hnone] at hc
    cases hc
  · have hnot : ¬ s.poison.AwaitsPut := by
      intro ha
      exact Bool.false_ne_true ((hk ha).1.symm.trans hissues)
    obtain ⟨put, hput, hseq⟩ := hs.put f hf
    refine ⟨put, hput, hseq, fun id hid => ?_⟩
    obtain ⟨hlt, hlost⟩ := hs.sound.kept put hput id hid
    rcases hs.sound.tracked.settled id hlt with hawaited | hconfirmed | hlost'
    · exact absurd ⟨put, hput, id, hid, hawaited⟩ hnot
    · exact hconfirmed
    · exact absurd hlost' hlost

/-- **A new source** has dropped nothing. -/
theorem kept_new (cfg : SourceConfig) : Kept (Source.new cfg) where
  sound := by
    refine ⟨⟨fun _ hid => absurd hid (Nat.not_lt_zero _), fun _ => rfl⟩, fun id hid => ?_, ?_, rfl⟩
    · rcases hid with hid | hid | hid <;> cases hid
    · intro put hput
      cases hput
  put f hf := by cases hf

/-- **The commits of every run cover poison that was dropped only when its put is confirmed or
counted as a failure**, under the policy that puts it on the queue and goes on, if while a put is
waited for no commit is issued, the sink is not closed, and no capture is refused. The failures that
are counted are those of the puts. -/
theorem durable_of_keepsPuts (cfg : SourceConfig) (retry : KafkaSink.RetryAsync DLQRecord)
    (hpolicy : cfg.poison.policy = .dlqAndContinue) (es : List Event)
    (h : AllSteps (step cfg retry) (fun s e _ => KeepsPuts cfg s e) (Source.new cfg) es) :
    AllSteps (step cfg retry) (fun s _ t => CommitsDurable s t
      ∧ t.poison.dlqWriteFailureCount = (t.poison.puts.filter (fun put => put.2.isNone)).length)
      (Source.new cfg) es := by
  refine allSteps_of_step (I := Kept) ?_ (kept_new cfg) h
  intro s e t hs hk hstep
  have ht := kept_step hpolicy hs hk hstep
  exact ⟨ht, commitsDurable_step hs hk hstep, ht.sound.counted⟩

/-- No transactional id is not an empty one. -/
theorem noTransactionalId_ne : (none : Option String) ≠ some "" := nofun

/-- Without transactions there need not be one. -/
theorem noTransactions : false = true → (none : Option String) ≠ none := nofun

/-- A source that puts poison on a queue, through a sink with a queue of this length. -/
def queueing (commitEvery maxPendingAcks : ℕ) (hcommit : 1 ≤ commitEvery)
    (hpending : 1 ≤ maxPendingAcks) : SourceConfig where
  assignments := {⟨"orders", 0⟩}
  commitEvery := commitEvery
  commitEvery_pos := hcommit
  poison :=
    { policy := .dlqAndContinue
      sink := some {
        routing := { topic := "orders-dlq", serializer := fun _ => [] }
        maxPendingAcks
        shouldRetry := fun _ _ => false
        maxPendingAcks_pos := hpending
        transactionalId_ne := noTransactionalId_ne
        transactional := noTransactions }
      sink_of_captures := fun _ => Option.some_ne_none _ }

/-- The first record cannot be deserialised; it is put on the queue and dropped. -/
def droppedFirst : List Event :=
  [.openPoisonSink [], .open (fun _ => 0), .stream,
    .polled [{ tp := ⟨"orders", 0⟩, offset := 0 }], .malformed (.exception "ValueError" ""),
    .captured [], .proceed]

/-- A record is dropped and put into the queue, and then the commit follows. -/
theorem durable_droppedFirst :
    AllSteps (step (queueing 1 1 le_rfl le_rfl) (KafkaSink.RetryAsync.upTo DLQRecord 1))
      (fun s _ t => CommitsDurable s t
        ∧ t.poison.dlqWriteFailureCount = (t.poison.puts.filter (fun put => put.2.isNone)).length)
      (Source.new (queueing 1 1 le_rfl le_rfl)) droppedFirst :=
  durable_of_keepsPuts (queueing 1 1 le_rfl le_rfl) (KafkaSink.RetryAsync.upTo DLQRecord 1) rfl
    droppedFirst (by decide)

/-- A commit that covers the record is issued while the put is in the queue. -/
example : ¬ AllSteps (step (queueing 1 100 le_rfl KafkaSink.one_le_maxPendingAcks)
      (KafkaSink.RetryAsync.upTo DLQRecord 1)) (fun s _ t => CommitsDurable s t)
    (Source.new (queueing 1 100 le_rfl KafkaSink.one_le_maxPendingAcks)) droppedFirst := by
  decide

end Source

import AgoraPlugins.Kafka.Sink

/-!
# What a flush has confirmed

A record is accepted when the call it was written by returns; the broker's
answer to it may come much later. `flush` waits for every delivery still in the
queue, and so a flush that returns ought to mean that what was accepted before
it is at the broker.

Deliveries leave the queue in other calls too. Back-pressure makes a `write`
wait for the *oldest* delivery, an earlier record's, and raises that record's
failure in a call which is about another; an abort drops the queue. Such a
delivery is gone from the queue and no later flush knows of it. What a flush
means is therefore a statement about the whole queue's history: every delivery
ever made is still queued, confirmed, awaited in vain or discarded
(`Tracked`), the last two only by a call that raised, or by a `close`.
-/

open Machine Effect

namespace KafkaSink

variable {α β : Type}

/-! ## Every delivery is accounted for -/

/-- A delivery that is out of the queue, and how it left it. -/
def Settled (s : State α) (id : ℕ) : Prop :=
  id ∈ s.confirmed ∨ id ∈ s.failed ∨ id ∈ s.discarded

/-- **Every delivery made is queued or settled**, and a sink without a producer
has an empty queue. -/
structure Tracked (s : State α) : Prop where
  settled : ∀ id < s.nextDelivery, id ∈ s.pendingAcks.map Delivery.id ∨ Settled s id
  closed : s.producer = false → s.pendingAcks = []

/-- **The account is kept**: what every computation does, however it exits. -/
structure Accounted (s t : State α) : Prop where
  tracked : Tracked s → Tracked t
  nextDelivery : s.nextDelivery ≤ t.nextDelivery

instance : IsPreorder (State α) Accounted where
  refl _ := ⟨id, Nat.le_refl _⟩
  trans _ _ _ h h' := ⟨h'.tracked ∘ h.tracked, Nat.le_trans h.nextDelivery h'.nextDelivery⟩

/-- **A computation that returns has made `n` deliveries**, all accounted for,
and has neither awaited one in vain nor discarded one. -/
structure Advances (n : ℕ) (s t : State α) : Prop where
  tracked : Tracked s → Tracked t
  nextDelivery : t.nextDelivery = s.nextDelivery + n
  failed : t.failed = s.failed
  discarded : t.discarded = s.discarded

/-- So many deliveries, and then so many more. -/
theorem Advances.trans {m n : ℕ} {s t u : State α} (h : Advances m s t)
    (h' : Advances n t u) : Advances (m + n) s u where
  tracked := h'.tracked ∘ h.tracked
  nextDelivery := by rw [h'.nextDelivery, h.nextDelivery, Nat.add_assoc]
  failed := h'.failed.trans h.failed
  discarded := h'.discarded.trans h.discarded

/-- What has advanced is accounted for. -/
theorem Advances.accounted {n : ℕ} {s t : State α} (h : Advances n s t) : Accounted s t :=
  ⟨h.tracked, by rw [h.nextDelivery]; exact Nat.le_add_right _ _⟩

/-- A computation that keeps account of the deliveries, and makes `n` if it
returns. -/
abbrev Accounts (n : ℕ) (m : SinkM α β) : Prop :=
  Exits (Advances n) (Accounted) m

/-- **One after the other**: the records of both are accounted for. -/
theorem Accounts.bind {γ : Type} {n k : ℕ} {m : SinkM α β} {f : β → SinkM α γ}
    (hm : Accounts n m) (hf : ∀ b, Accounts k (f b)) : Accounts (n + k) (m >>= f) :=
  Exits.bind hm hf (fun _ _ _ h h' => h.trans h') (fun _ _ h => h)
    (fun _ _ _ h h' => trans_of Accounted h.accounted h')

/-- What is done after something that makes no delivery. -/
theorem Accounts.after {γ : Type} {n : ℕ} {m : SinkM α β} {f : β → SinkM α γ}
    (hm : Accounts 0 m) (hf : ∀ b, Accounts n (f b)) : Accounts n (m >>= f) := by
  have h := hm.bind hf
  rwa [Nat.zero_add] at h

/-! ## What does not concern the queue -/

/-- **The queue is left alone**: sending and awaiting may confirm a delivery,
and change nothing else about deliveries. -/
structure Apart (s t : State α) : Prop where
  producer : t.producer = s.producer
  pendingAcks : t.pendingAcks = s.pendingAcks
  nextDelivery : t.nextDelivery = s.nextDelivery
  failed : t.failed = s.failed
  discarded : t.discarded = s.discarded
  confirmed : s.confirmed ⊆ t.confirmed

instance : IsPreorder (State α) Apart where
  refl _ := ⟨rfl, rfl, rfl, rfl, rfl, List.Subset.refl _⟩
  trans _ _ _ h h' :=
    { producer := h'.producer.trans h.producer
      pendingAcks := h'.pendingAcks.trans h.pendingAcks
      nextDelivery := h'.nextDelivery.trans h.nextDelivery
      failed := h'.failed.trans h.failed
      discarded := h'.discarded.trans h.discarded
      confirmed := List.Subset.trans h.confirmed h'.confirmed }

/-- A delivery that is settled stays settled. -/
theorem Apart.settled {s t : State α} (h : Apart s t) {id : ℕ} (hs : Settled s id) :
    Settled t id := by
  unfold Settled
  rw [h.failed, h.discarded]
  exact hs.imp_left (fun hc => h.confirmed hc)

/-- No delivery is made where the queue is left alone. -/
theorem Apart.advances {s t : State α} (h : Apart s t) : Advances 0 s t where
  tracked hs := by
    refine ⟨fun id hid => ?_, fun hp => ?_⟩
    · rw [h.nextDelivery] at hid
      rw [h.pendingAcks]
      exact (hs.settled id hid).imp_right h.settled
    · rw [h.producer] at hp
      rw [h.pendingAcks]
      exact hs.closed hp
  nextDelivery := h.nextDelivery
  failed := h.failed
  discarded := h.discarded

/-- A computation that leaves the queue alone makes no delivery. -/
theorem accounts_of_apart {m : SinkM α β} (h : Respects Apart m) : Accounts 0 m :=
  h.exits.mono (fun _ _ h => h.advances) (fun _ _ h => h.advances.accounted)

theorem accounts_pure (b : β) : Accounts 0 (pure b : SinkM α β) :=
  accounts_of_apart (respects_pure b)

theorem accounts_throw {n : ℕ} (e : Exc) : Accounts n (throw e : SinkM α β) := by
  intro s
  rw [ensures_throw]
  exact refl_of Accounted s

theorem accounts_get : Accounts 0 (get : SinkM α (State α)) :=
  accounts_of_apart respects_get

theorem apart_await : Respects Apart (await : SinkM α PUnit) :=
  fun _ => ensures_await (fun _ => ⟨rfl, rfl, rfl, rfl, rfl, List.Subset.refl _⟩)
    (fun _ _ => ⟨rfl, rfl, rfl, rfl, rfl, List.Subset.refl _⟩)

theorem apart_requireProducer : Respects Apart (requireProducer : SinkM α PUnit) :=
  fun s => ensures_requireProducer (fun _ => refl_of Apart s) (fun _ => refl_of Apart s)

theorem apart_issueSend (record : α) (message : ResolvedKafkaSinkMessage) :
    Respects Apart (issueSend record message) := by
  unfold issueSend
  cases message.value with
  | none => exact respects_throw _
  | some _ =>
    refine apart_await.bind (fun _ => ?_)
    exact respects_modify (fun s => ⟨rfl, rfl, rfl, rfl, rfl, List.Subset.refl _⟩)

/-- Awaiting a delivery confirms it if it returns. -/
theorem exits_awaitDelivery (id : ℕ) :
    Exits (fun s t => Apart s t ∧ id ∈ t.confirmed) Apart
      (awaitDelivery id : SinkM α PUnit) := by
  intro s
  unfold awaitDelivery
  refine (apart_await s).bind (fun _ t hst => ?_) (fun _ _ h => h)
  rw [ensures_modify]
  refine ⟨trans_of Apart hst ?_, List.mem_append_right _ (List.mem_singleton.2 rfl)⟩
  exact ⟨rfl, rfl, rfl, rfl, rfl, List.subset_append_left _ _⟩

variable (cfg : Config α) (retry : RetryAsync α)

/-! ## Deliveries join the queue and leave it -/

/-- **A delivery that failed is sent again** until it is confirmed, or the last error is raised. -/
theorem exits_confirmAgain (delivery : Delivery α) (e : Exc) :
    Exits (fun s t => Apart s t ∧ delivery.id ∈ t.confirmed) Apart
      (confirmAgain cfg retry delivery e) := by
  unfold confirmAgain
  cases e.isException && cfg.shouldRetry e 1 with
  | false => exact fun s => refl_of Apart s
  | true =>
    have hsend : Exits (fun s t => Apart s t ∧ delivery.id ∈ t.confirmed) Apart
        (sendAndConfirm delivery) :=
      (apart_issueSend _ _).exits.bind (fun _ => exits_awaitDelivery delivery.id)
        (fun _ _ _ h h' => ⟨trans_of Apart h h'.1, h'.2⟩) (fun _ _ h => h)
        (fun _ _ _ h h' => trans_of Apart h h')
    exact Attempts.exits hsend (hsend.mono (fun _ _ h => h.1) (fun _ _ h => h)).respects
      (fun _ _ _ h h' => ⟨trans_of Apart h h'.1, h'.2⟩) (retry.attempts _)

/-- **A confirmation settles its delivery**: it confirms it or raises, and what
raises is recorded as awaited in vain. -/
theorem exits_confirm (delivery : Delivery α) :
    Exits (fun s t => Apart s t ∧ delivery.id ∈ t.confirmed)
      (fun s t => ∃ u, Apart s u ∧ t = { u with failed := u.failed ++ [delivery.id] })
      (confirm cfg retry delivery) := by
  have htry : Exits (fun s t => Apart s t ∧ delivery.id ∈ t.confirmed) Apart
      (tryCatch (awaitDelivery delivery.id) (confirmAgain cfg retry delivery)) :=
    (exits_awaitDelivery delivery.id).tryCatch (exits_confirmAgain cfg retry delivery)
      (fun _ _ _ h h' => ⟨trans_of Apart h h'.1, h'.2⟩) (fun _ _ _ h h' => trans_of Apart h h')
  have hrecord : ∀ e, Exits (fun _ _ => False)
      (fun s t => t = { s with failed := s.failed ++ [delivery.id] })
      (recordFailure delivery e) := fun _ _ => rfl
  exact htry.tryCatch hrecord (fun _ _ _ _ h => h.elim) (fun _ u _ h h' => ⟨u, h, h'⟩)

/-- **The oldest delivery leaves the queue** and is settled: in vain only if the
wait raises. -/
theorem exits_awaitOldestAck :
    Exits (fun s t => Advances 0 s t ∧ t.pendingAcks = s.pendingAcks.tail)
      (Accounted) (awaitOldestAck cfg retry) := by
  intro s
  cases hp : s.pendingAcks with
  | nil =>
    rw [ensures_awaitOldestAck_nil cfg retry hp]
    exact ⟨(refl_of Apart s).advances, by rw [hp]; rfl⟩
  | cons delivery pendingAcks =>
    rw [ensures_awaitOldestAck_cons cfg retry hp]
    -- once the oldest is settled, the shorter queue still accounts for all
    have hkeep : ∀ t : State α, t.nextDelivery = s.nextDelivery → t.producer = s.producer →
        t.pendingAcks = pendingAcks → (∀ id, Settled s id → Settled t id) →
        Settled t delivery.id → Tracked s → Tracked t := by
      intro t hn ho hq hmono hd hs
      refine ⟨fun id hid => ?_, fun hclosed => ?_⟩
      · rw [hn] at hid
        rw [hq]
        rcases hs.settled id hid with hid | hid
        · rw [hp, List.map_cons, List.mem_cons] at hid
          rcases hid with rfl | hid
          · exact .inr hd
          · exact .inl hid
        · exact .inr (hmono id hid)
      · rw [ho] at hclosed
        have := hs.closed hclosed
        rw [hp] at this
        cases this
    refine (exits_confirm cfg retry delivery _).mono (fun r t h => ?_)
    cases r with
    | ok _ =>
      obtain ⟨ha, hd⟩ := h
      refine ⟨⟨?_, ha.nextDelivery, ha.failed, ha.discarded⟩, ?_⟩
      · exact hkeep t ha.nextDelivery ha.producer ha.pendingAcks (fun _ h => ha.settled h)
          (.inl hd)
      · rw [hp]
        exact ha.pendingAcks
    | error e =>
      obtain ⟨u, ha, rfl⟩ := h
      refine ⟨hkeep _ ha.nextDelivery ha.producer ha.pendingAcks (fun id h => ?_)
        (.inr (.inl ?_)), Nat.le_of_eq ha.nextDelivery.symm⟩
      · rcases ha.settled h with h | h | h
        · exact .inl h
        · exact .inr (.inl (List.mem_append_left _ h))
        · exact .inr (.inr h)
      · exact List.mem_append_right _ (List.mem_singleton.2 rfl)

/-- **The oldest delivery** is confirmed, or has failed. -/
theorem accounts_awaitOldestAck : Accounts 0 (awaitOldestAck cfg retry) :=
  (exits_awaitOldestAck cfg retry).mono (fun _ _ h => h.1) (fun _ _ h => h)

/-- Draining `n` deliveries takes `n` off the queue. -/
theorem exits_drainLoop : ∀ n : ℕ,
    Exits (fun s t => Advances 0 s t ∧ t.pendingAcks = s.pendingAcks.drop n)
      (Accounted) (drainLoop cfg retry n)
  | 0 => fun s => ⟨(refl_of Apart s).advances, rfl⟩
  | n + 1 => by
    intro s
    unfold drainLoop
    rw [ensures_bind, ensures_get]
    show Ensures (if s.pendingAcks = [] then _ else _) s _
    by_cases hs : s.pendingAcks = []
    · rw [if_pos hs]
      exact ⟨(refl_of Apart s).advances, by rw [hs, List.drop_nil]⟩
    · rw [if_neg hs]
      refine (exits_awaitOldestAck cfg retry s).bind (fun _ t hst => ?_) (fun _ _ h => h)
      refine (exits_drainLoop n t).mono (fun r u htu => ?_)
      cases r with
      | ok _ =>
        refine ⟨hst.1.trans htu.1, ?_⟩
        rw [htu.2, hst.2, List.drop_tail]
      | error e => exact trans_of Accounted hst.1.accounted htu

/-- **A drain that returns leaves the queue empty.** -/
theorem exits_drainPendingAcks :
    Exits (fun s t => Advances 0 s t ∧ t.pendingAcks = []) (Accounted)
      (drainPendingAcks cfg retry) := by
  intro s
  unfold drainPendingAcks
  rw [ensures_bind, ensures_get]
  refine (exits_drainLoop cfg retry _ s).mono (fun r t h => ?_)
  cases r with
  | ok _ => exact ⟨h.1, by rw [h.2, List.drop_length]⟩
  | error e => exact h

theorem accounts_drainPendingAcks : Accounts 0 (drainPendingAcks cfg retry) :=
  (exits_drainPendingAcks cfg retry).mono (fun _ _ h => h.1) (fun _ _ h => h)

/-! ## The sink's methods -/

/-- A send that returns has made the next delivery, not queued yet. -/
theorem ensures_sendWithRetry (record : α) (message : ResolvedKafkaSinkMessage)
    (s : State α) :
    Ensures (sendWithRetry retry record message) s (fun r t => match r with
      | .ok delivery => delivery.id = s.nextDelivery ∧ s.producer = true
        ∧ ∃ u, Apart s u ∧ t = { u with nextDelivery := u.nextDelivery + 1 }
      | .error _ => Apart s t) := by
  unfold sendWithRetry
  rw [ensures_bind]
  refine ensures_requireProducer (fun hp => ?_) (fun _ => refl_of Apart s)
  have hsend : Respects Apart (retry.run (issueSend record message)) :=
    Attempts.respects (apart_issueSend record message) (retry.attempts _)
  refine (hsend s).bind (fun _ t hst => ?_) (fun _ _ h => h)
  rw [ensures_bind, ensures_get]
  exact ⟨hst.nextDelivery, hp, t, hst, rfl⟩

/-- **A delivery that is made is queued**, and the queue shortened again when it
is full. -/
theorem accounts_sendAndPark (record : α) (message : ResolvedKafkaSinkMessage) :
    Accounts 1 (do
      let delivery ← sendWithRetry retry record message
      park cfg retry delivery) := by
  intro s
  refine (ensures_sendWithRetry retry record message s).bind (fun delivery t h => ?_)
    (fun _ _ h => h.advances.accounted)
  obtain ⟨hid, hp, u, ha, rfl⟩ := h
  unfold park
  rw [ensures_bind, ensures_modify]
  -- the queue with the new delivery in it
  have hqueued : Advances 1 s { u with
      nextDelivery := u.nextDelivery + 1
      pendingAcks := u.pendingAcks ++ [delivery] } := by
    refine ⟨fun hs => ⟨fun id hlt => ?_, fun hclosed => ?_⟩, ?_, ha.failed, ha.discarded⟩
    · rcases Nat.lt_succ_iff_lt_or_eq.1 hlt with hlt | rfl
      · refine ((ha.advances.tracked hs).settled id hlt).imp (fun h => ?_) (fun h => h)
        rw [List.map_append]
        exact List.mem_append_left _ h
      · refine .inl ?_
        rw [List.map_append, ha.nextDelivery, ← hid]
        exact List.mem_append_right _ (List.mem_singleton.2 rfl)
    · have hopen : u.producer = true := ha.producer.trans hp
      rw [show u.producer = false from hclosed] at hopen
      cases hopen
    · show u.nextDelivery + 1 = s.nextDelivery + 1
      rw [ha.nextDelivery]
  have hrest : ∀ v : State α, Accounts 0 (if cfg.maxPendingAcks ≤ v.pendingAcks.length then
      awaitOldestAck cfg retry else pure ⟨⟩) := by
    intro v
    by_cases hv : cfg.maxPendingAcks ≤ v.pendingAcks.length
    · rw [if_pos hv]
      exact accounts_awaitOldestAck cfg retry
    · rw [if_neg hv]
      exact accounts_pure _
  refine ((accounts_get.after hrest) _).mono (fun r v h => ?_)
  cases r with
  | ok _ => exact hqueued.trans h
  | error e => exact trans_of Accounted hqueued.accounted h

/-- **A record is one delivery**, whatever becomes of it. -/
theorem accounts_enqueueSend (record : α) : Accounts 1 (enqueueSend cfg retry record) :=
  (accounts_of_apart apart_requireProducer).after (fun _ =>
    (accounts_of_apart apart_await).after (fun _ => accounts_sendAndPark cfg retry record _))

/-- **A record that is enqueued** is one record more to account for. -/
theorem accounts_enqueueSerialized (record : α) :
    Accounts 1 (enqueueSerialized cfg retry record) :=
  (accounts_of_apart apart_await).after (fun _ => accounts_sendAndPark cfg retry record _)

/-- A loop makes one delivery for each record of the batch. -/
theorem accounts_forM {f : α → SinkM α PUnit} (hf : ∀ record, Accounts 1 (f record)) :
    ∀ records : List α, Accounts records.length (records.forM f)
  | [] => accounts_pure _
  | record :: records => by
    rw [List.length_cons, Nat.add_comm]
    exact (hf record).bind (fun _ => accounts_forM hf records)

/-- **The records of a batch** are as many deliveries. By induction on them. -/
theorem accounts_writeBatchUnwrapped (records : List α) :
    Accounts records.length (writeBatchUnwrapped cfg retry records) := by
  unfold writeBatchUnwrapped
  by_cases hm : cfg.routing.messageFn.isSome
  · rw [if_pos hm]
    exact accounts_forM (accounts_enqueueSend cfg retry) records
  · rw [if_neg hm]
    refine Accounts.after (accounts_of_apart (respects_forM (fun _ => apart_await) records))
      (fun _ => ?_)
    exact accounts_forM (accounts_enqueueSerialized cfg retry) records

/-- What changes nothing about deliveries. -/
theorem apart_modify {f : State α → State α} (hp : ∀ s, (f s).producer = s.producer)
    (hq : ∀ s, (f s).pendingAcks = s.pendingAcks)
    (hn : ∀ s, (f s).nextDelivery = s.nextDelivery) (hf : ∀ s, (f s).failed = s.failed)
    (hd : ∀ s, (f s).discarded = s.discarded) (hc : ∀ s, (f s).confirmed = s.confirmed) :
    Respects Apart (modify f : SinkM α PUnit) :=
  respects_modify (fun s => ⟨hp s, hq s, hn s, hf s, hd s, by rw [hc]; exact List.Subset.refl _⟩)

/-- A call of the broker that begins or ends a transaction touches no delivery. -/
theorem apart_setTransaction (broker : State α → Broker α) (inTransaction : Bool) :
    Respects Apart (do
      await
      modify (fun s => { s with broker := broker s, inTransaction }) : SinkM α PUnit) := by
  refine apart_await.bind (fun _ => ?_)
  exact apart_modify (fun _ => rfl) (fun _ => rfl) (fun _ => rfl) (fun _ => rfl) (fun _ => rfl)
    (fun _ => rfl)

/-- A transaction begins without a delivery. -/
theorem apart_beginTransaction : Respects Apart (beginTransaction : SinkM α PUnit) :=
  apart_requireProducer.bind (fun _ => apart_setTransaction _ true)

theorem accounts_beginTransaction : Accounts 0 (beginTransaction : SinkM α PUnit) :=
  accounts_of_apart apart_beginTransaction

theorem accounts_commitTransaction : Accounts 0 (commitTransaction cfg retry) :=
  (accounts_of_apart apart_requireProducer).after (fun _ =>
    (accounts_drainPendingAcks cfg retry).after (fun _ =>
      accounts_of_apart (apart_setTransaction _ false)))

/-- **Dropping the queue settles what was in it**, producer or not. -/
theorem Tracked.cleared {s t : State α} (hs : Tracked s) (hq : t.pendingAcks = [])
    (hn : t.nextDelivery = s.nextDelivery) (hc : t.confirmed = s.confirmed)
    (hf : t.failed = s.failed)
    (hd : t.discarded = s.discarded ++ s.pendingAcks.map Delivery.id) : Tracked t where
  settled id hid := by
    rw [hn] at hid
    refine .inr ?_
    unfold Settled
    rw [hc, hf, hd]
    rcases hs.settled id hid with h | h | h | h
    · exact .inr (.inr (List.mem_append_right _ h))
    · exact .inl h
    · exact .inr (.inl h)
    · exact .inr (.inr (List.mem_append_left _ h))
  closed _ := hq

/-- Deliveries that are forgotten are counted as discarded. -/
theorem accounted_clearPendingAcks :
    Respects Accounted (clearPendingAcks : SinkM α PUnit) :=
  respects_modify (fun _ => ⟨fun hs => hs.cleared rfl rfl rfl rfl rfl, Nat.le_refl _⟩)

theorem Apart.accounted {s t : State α} (h : Apart s t) : Accounted s t :=
  h.advances.accounted

/-- So a computation that leaves the queue alone keeps it. -/
theorem accounted_of_apart {m : SinkM α β} (h : Respects Apart m) : Respects Accounted m :=
  h.mono (fun _ _ h => h.accounted)

theorem accounted_abortTransaction :
    Respects Accounted (abortTransaction : SinkM α PUnit) :=
  (accounted_of_apart apart_requireProducer).bind (fun _ =>
    accounted_clearPendingAcks.bind (fun _ =>
      accounted_of_apart (apart_setTransaction _ false)))

/-- A transaction that returns did not abort, so it discarded nothing. -/
theorem accounts_transaction {n : ℕ} {body : SinkM α PUnit} (hbody : Accounts n body) :
    Accounts n (transaction cfg retry body) := by
  have hhandler : ∀ e : Exc, Exits (fun _ _ => False) Accounted
      (if e.isException then do
        abortTransaction
        throw e
      else throw e : SinkM α PUnit) := by
    intro e
    cases e.isException with
    | false => exact fun s => refl_of Accounted s
    | true =>
      exact accounted_abortTransaction.exits.bind (fun _ s => refl_of Accounted s)
        (fun _ _ _ _ h => h) (fun _ _ h => h) (fun _ _ _ h h' => trans_of Accounted h h')
  have htry := hbody.tryCatch hhandler (fun _ _ _ _ h => h.elim)
    (fun _ _ _ h h' => trans_of Accounted h h')
  unfold transaction
  refine accounts_beginTransaction.after (fun _ => ?_)
  exact Accounts.bind htry (fun _ => accounts_commitTransaction cfg retry)

/-- **`write`** makes one delivery. -/
theorem accounts_write (record : α) : Accounts 1 (write cfg retry record) := by
  unfold write
  refine accounts_get.after (fun s => ?_)
  cases s.producer with
  | true => exact accounts_enqueueSend cfg retry record
  | false => exact accounts_throw _

/-- **`write_batch`** makes one for each record. -/
theorem accounts_writeBatch (records : List α) :
    Accounts records.length (writeBatch cfg retry records) := by
  have hbody := accounts_writeBatchUnwrapped cfg retry records
  unfold writeBatch
  refine (accounts_of_apart apart_requireProducer).after (fun _ => accounts_get.after
    (fun s => ?_))
  cases cfg.transactionPerBatch && !s.inTransaction with
  | true => exact accounts_transaction cfg retry hbody
  | false => exact hbody

/-- **A flush that returns leaves the queue empty**, and has settled nothing in
vain. -/
theorem exits_flush :
    Exits (fun s t => Advances 0 s t ∧ (Tracked s → t.pendingAcks = [])) Accounted
      (flush cfg retry) := by
  intro s
  unfold flush
  rw [ensures_bind, ensures_get]
  show Ensures (if s.producer = true then _ else _) s _
  cases hp : s.producer with
  | false => exact ⟨(refl_of Apart s).advances, fun hs => hs.closed hp⟩
  | true =>
    rw [if_pos rfl]
    refine (exits_drainPendingAcks cfg retry s).bind (fun _ t hst => ?_) (fun _ _ h => h)
    have hflush : Respects Apart (retry.run await) :=
      Attempts.respects apart_await (retry.attempts await)
    refine (hflush t).mono (fun r u htu => ?_)
    cases r with
    | ok _ => exact ⟨hst.1.trans htu.advances, fun _ => htu.pendingAcks.trans hst.2⟩
    | error e => exact trans_of Accounted hst.1.accounted htu.accounted

/-! ## Opening and closing -/

/-- A hook of the message function makes none. -/
theorem apart_callMessageFnHook : Respects Apart (callMessageFnHook cfg) := by
  unfold callMessageFnHook
  cases cfg.routing.messageFn.isSome with
  | true => exact apart_await
  | false => exact respects_pure _

theorem apart_openSerializer : Respects Apart (openSerializer cfg) := by
  refine apart_await.bind (fun _ => Respects.bind ?_ (fun _ => apart_callMessageFnHook cfg))
  exact apart_modify (fun _ => rfl) (fun _ => rfl) (fun _ => rfl) (fun _ => rfl) (fun _ => rfl)
    (fun _ => rfl)

theorem apart_closeSerializer : Respects Apart (closeSerializer cfg) := by
  unfold closeSerializer
  refine respects_get.bind (fun s => ?_)
  cases s.serializerOpen with
  | false => exact respects_pure _
  | true =>
    refine (apart_callMessageFnHook cfg).bind (fun _ => apart_await.bind (fun _ => ?_))
    exact apart_modify (fun _ => rfl) (fun _ => rfl) (fun _ => rfl) (fun _ => rfl)
      (fun _ => rfl) (fun _ => rfl)

theorem apart_stopFailedProducer (producer : Bool) :
    Respects Apart (stopFailedProducer producer : SinkM α PUnit) := by
  unfold stopFailedProducer
  cases producer with
  | false => exact respects_pure _
  | true =>
    refine apart_await.tryCatch (fun e => ?_)
    cases e.isException with
    | true => exact respects_pure _
    | false => exact respects_throw e

/-- **Opening is apart from the queue** but for the producer, which comes and,
should the start fail, goes. -/
def Reopened (s t : State α) : Prop :=
  Apart { s with producer := t.producer } t

instance : IsPreorder (State α) Reopened where
  refl s := refl_of Apart s
  trans _ _ _ h h' :=
    { producer := rfl
      pendingAcks := h'.pendingAcks.trans h.pendingAcks
      nextDelivery := h'.nextDelivery.trans h.nextDelivery
      failed := h'.failed.trans h.failed
      discarded := h'.discarded.trans h.discarded
      confirmed := List.Subset.trans h.confirmed h'.confirmed }

/-- Nothing is taken up where the queue is left alone. -/
theorem Apart.reopened {s t : State α} (h : Apart s t) : Reopened s t where
  producer := rfl
  pendingAcks := h.pendingAcks
  nextDelivery := h.nextDelivery
  failed := h.failed
  discarded := h.discarded
  confirmed := h.confirmed

/-- With an empty queue the account does not ask whether there is a
producer. -/
theorem Reopened.advances {s t : State α} (h : Reopened s t) (hq : s.pendingAcks = []) :
    Advances 0 s t where
  tracked hs :=
    (Apart.advances h).tracked ⟨hs.settled, fun _ => hq⟩
  nextDelivery := h.nextDelivery
  failed := h.failed
  discarded := h.discarded

/-- **`open`** begins without a delivery. -/
theorem reopened_open : Respects Reopened (KafkaSink.open cfg) := by
  have hproducer : ∀ producer : Bool, ∀ s : State α,
      Reopened s { s with producer := producer } :=
    fun _ _ => ⟨rfl, rfl, rfl, rfl, rfl, List.Subset.refl _⟩
  have hserializer := (apart_openSerializer cfg).mono (fun _ _ h => h.reopened)
  have hawait := (apart_await : Respects Apart (await : SinkM α PUnit)).mono
    (fun _ _ h => h.reopened)
  unfold KafkaSink.open
  refine Respects.tryCatch (hserializer.bind (fun _ => Respects.bind ?_ (fun _ => hawait)))
    (fun e => ?_)
  · exact respects_modify (fun _ => ⟨rfl, rfl, rfl, rfl, rfl, List.Subset.refl _⟩)
  · cases e.isException with
    | false => exact respects_throw e
    | true =>
      refine respects_get.bind (fun s => Respects.bind (respects_modify (hproducer false))
        (fun _ => ?_))
      exact ((apart_stopFailedProducer s.producer).mono (fun _ _ h => h.reopened)).bind
        (fun _ => ((apart_closeSerializer cfg).mono (fun _ _ h => h.reopened)).bind
          (fun _ => respects_throw e))

/-- Stopping the producer leaves what is accounted for. -/
theorem accounted_stopProducer : Respects Accounted (stopProducer : SinkM α PUnit) := by
  intro s
  unfold stopProducer
  rw [ensures_bind, ensures_modify, ensures_ensuring]
  refine ensures_await (fun script => ?_) (fun e script => ?_)
  · exact ⟨fun hs => hs.cleared rfl rfl rfl rfl rfl, Nat.le_refl _⟩
  · exact ⟨fun hs => hs.cleared rfl rfl rfl rfl rfl, Nat.le_refl _⟩

/-- **Closing keeps the account**: whatever is still queued when the producer is
stopped is discarded. -/
theorem accounted_close : Respects Accounted (close cfg retry) := by
  have hflush : Respects Accounted (flush cfg retry) :=
    Exits.respects ((exits_flush cfg retry).mono (fun _ _ h => h.1.accounted) (fun _ _ h => h))
  unfold close
  refine Respects.ensuring (respects_get.bind (fun s => ?_))
    (accounted_of_apart (apart_closeSerializer cfg))
  cases s.producer with
  | false => exact respects_pure _
  | true =>
    refine Respects.ensuring (respects_get.bind (fun s => ?_)) accounted_stopProducer
    cases s.inTransaction with
    | true => exact accounted_abortTransaction
    | false => exact hflush

/-! ## Runs -/

/-- **What a session has to answer for**: its sink accounts for every delivery,
those accepted have been made, and those not settled well have surfaced. -/
structure Answerable (s : Session α) : Prop where
  tracked : Tracked s.sink
  accepted : ∀ id ∈ s.accepted, id < s.sink.nextDelivery
  surfaced : ∀ id, id ∈ s.sink.failed ∨ id ∈ s.sink.discarded → id ∈ s.surfaced

/-- A new sink has nothing to answer for. -/
theorem answerable_initial : Answerable ({} : Session α) where
  tracked := ⟨fun _ hid => absurd hid (Nat.not_lt_zero _), fun _ => rfl⟩
  accepted id hid := by cases hid
  surfaced id hid := by rcases hid with hid | hid <;> cases hid

/-- The replies that are still to come have to do with no delivery. -/
theorem Tracked.script {s : State α} (hs : Tracked s) (script : List Reply) :
    Tracked { s with script := script } := ⟨hs.settled, hs.closed⟩

/-- A call keeps the account however it ends. -/
theorem accounted_step {s t : Session α} {call : Call α} (hs : Tracked s.sink)
    (h : step cfg retry s call = some t) :
    Accounted { s.sink with script := call.script } t.sink := by
  have hrun : ∀ method : Method α, method.isOpen = false →
      Respects Accounted (method.run cfg retry) := by
    intro method hm
    cases method with
    | «open» => cases hm
    | write record =>
      exact ((accounts_write cfg retry record).mono (fun _ _ h => h.accounted)
        (fun _ _ h => h)).respects
    | writeBatch records =>
      exact ((accounts_writeBatch cfg retry records).mono (fun _ _ h => h.accounted)
        (fun _ _ h => h)).respects
    | flush =>
      exact ((exits_flush cfg retry).mono (fun _ _ h => h.1.accounted)
        (fun _ _ h => h)).respects
    | close => exact accounted_close cfg retry
  have hstart : Ensures (call.method.run cfg retry) { s.sink with script := call.script }
      (fun _ t => Accounted { s.sink with script := call.script } t) := by
    cases hm : call.method.isOpen with
    | false => exact hrun call.method hm _
    | true =>
      have hopen : call.method = .open := by
        cases hc : call.method <;> rw [hc] at hm <;> first | rfl | cases hm
      have hp : s.sink.producer = false := by
        cases hp : s.sink.producer with
        | false => rfl
        | true =>
          unfold step at h
          rw [hm, hp] at h
          cases h
      rw [hopen]
      exact (reopened_open cfg _).mono
        (fun _ _ hr => (hr.advances (hs.closed hp)).accounted)
  obtain ⟨u, hu, rfl⟩ | ⟨e, u, hu, rfl⟩ := step_cases cfg retry h
  · exact hstart.of_ok hu
  · exact hstart.of_error hu

/-- **A call that returns settles nothing badly**, unless it is a `close`. -/
theorem step_quiet {s t : Session α} {call : Call α}
    (h : step cfg retry s call = some t) (hr : t.raised = none) (hc : call.method ≠ .close) :
    t.sink.failed = s.sink.failed ∧ t.sink.discarded = s.sink.discarded := by
  have hrun := step_returned cfg retry h hr
  obtain ⟨method, script⟩ := call
  cases method with
  | «open» =>
    have ha := (reopened_open cfg { s.sink with script := script }).of_ok hrun
    exact ⟨ha.failed, ha.discarded⟩
  | write record =>
    have ha := (accounts_write cfg retry record).of_ok hrun
    exact ⟨ha.failed, ha.discarded⟩
  | writeBatch records =>
    have ha := (accounts_writeBatch cfg retry records).of_ok hrun
    exact ⟨ha.failed, ha.discarded⟩
  | flush =>
    have ha := ((exits_flush cfg retry).of_ok hrun).1
    exact ⟨ha.failed, ha.discarded⟩
  | close => exact absurd rfl hc

/-- **Every call** answers for its deliveries. -/
theorem answerable_step {s t : Session α} {call : Call α} (hs : Answerable s)
    (h : step cfg retry s call = some t) : Answerable t := by
  have ha := accounted_step cfg retry hs.tracked h
  refine ⟨ha.tracked (hs.tracked.script _), fun id hid => ?_, fun id hid => ?_⟩
  · -- what was accepted before, and what this call has made
    have hold : ∀ id ∈ s.accepted, id < t.sink.nextDelivery :=
      fun id hid => Nat.lt_of_lt_of_le (hs.accepted id hid) ha.nextDelivery
    obtain ⟨u, _, rfl⟩ | ⟨e, u, _, rfl⟩ := step_cases cfg retry h
    · rcases List.mem_append.1 hid with hid | hid
      · exact hold id hid
      · have hle : s.sink.nextDelivery ≤ u.nextDelivery := ha.nextDelivery
        rw [List.mem_range'_1] at hid
        show id < u.nextDelivery
        omega
    · exact hold id hid
  · by_cases hq : t.raised = none ∧ call.method ≠ .close
    · obtain ⟨hf, hd⟩ := step_quiet cfg retry h hq.1 hq.2
      rw [hf, hd] at hid
      have hsurfaced := hs.surfaced id hid
      obtain ⟨u, _, rfl⟩ | ⟨e, u, _, rfl⟩ := step_cases cfg retry h
      · cases hm : call.method <;> first | exact hsurfaced | exact absurd hm hq.2
      · cases hq.1
    · have hall : t.surfaced = t.sink.failed ++ t.sink.discarded := by
        obtain ⟨u, _, rfl⟩ | ⟨e, u, _, rfl⟩ := step_cases cfg retry h
        · have hm : call.method = .close := by
            by_contra hm
            exact hq ⟨rfl, hm⟩
          rw [hm]
          rfl
        · rfl
      rw [hall]
      exact List.mem_append.2 hid

/-! ## The law of a flush -/

/-- **A flush that returns has everything confirmed** that was accepted before
it. -/
def FlushConfirms (s : Session α) (call : Call α) (t : Session α) : Prop :=
  call.method = .flush → t.raised = none → ∀ id ∈ s.accepted, id ∈ t.sink.confirmed

/-- **A flush that returns leaves nothing open**: what was accepted before it is
confirmed, or has surfaced in an earlier call. -/
def FlushAccounts (s : Session α) (call : Call α) (t : Session α) : Prop :=
  call.method = .flush → t.raised = none →
    ∀ id ∈ s.accepted, id ∈ t.sink.confirmed ∨ id ∈ s.surfaced

instance [DecidableEq α] (s : Session α) (call : Call α) (t : Session α) :
    Decidable (FlushConfirms s call t) :=
  inferInstanceAs (Decidable (call.method = .flush → t.raised = none → _))

/-- **A flush** accounts for all deliveries before it. -/
theorem step_flushAccounts {s t : Session α} {call : Call α} (hs : Answerable s)
    (h : step cfg retry s call = some t) : FlushAccounts s call t := by
  intro hm hr id hid
  have ha := answerable_step cfg retry hs h
  have hquiet := step_quiet cfg retry h hr (by rw [hm]; exact fun hc => by cases hc)
  have hempty : t.sink.pendingAcks = [] := by
    have hrun := step_returned cfg retry h hr
    rw [hm] at hrun
    exact ((exits_flush cfg retry).of_ok hrun).2 (hs.tracked.script _)
  have hlt : id < t.sink.nextDelivery :=
    Nat.lt_of_lt_of_le (hs.accepted id hid) (accounted_step cfg retry hs.tracked h).nextDelivery
  rcases ha.tracked.settled id hlt with hq | hc | hf | hd
  · rw [hempty] at hq
    cases hq
  · exact .inl hc
  · rw [hquiet.1] at hf
    exact .inr (hs.surfaced id (.inl hf))
  · rw [hquiet.2] at hd
    exact .inr (hs.surfaced id (.inr hd))

/-- **In every run a flush that returns accounts for everything accepted.** -/
theorem flush_accounts (calls : List (Call α)) :
    AllSteps (step cfg retry) FlushAccounts {} calls :=
  allSteps_of_invariant (fun _ _ _ hs h =>
    ⟨answerable_step cfg retry hs h, step_flushAccounts cfg retry hs h⟩) answerable_initial calls

/-- A queue of two. -/
def shortQueue : Config ℕ where
  routing := { topic := "orders", serializer := fun _ => [] }
  maxPendingAcks := 2
  shouldRetry _ _ := false
  maxPendingAcks_pos := by decide

/-- The first record is accepted; the second write fills the queue, waits for
the first delivery, and raises its failure. Then a flush. -/
def refusedUnderBackPressure : List (Call ℕ) :=
  [{ method := .open },
   { method := .write 1 },
   { method := .write 2
     script := [.ok, .ok, .raises (.exception "MessageSizeTooLargeError" "")] },
   { method := .flush }]

/-- **A delivery that was refused under back-pressure** is not confirmed by the flush after it,
which returns. -/
theorem flush_not_confirms :
    ¬ AllSteps (step shortQueue (RetryAsync.upTo ℕ 2)) FlushConfirms {}
      refusedUnderBackPressure := by
  decide

end KafkaSink

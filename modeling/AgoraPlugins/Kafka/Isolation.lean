import AgoraPlugins.Kafka.SourceSteps

/-!
# Records of before a rebalance or a seek

A record that has been fetched goes on to be delivered and acknowledged even
when its partition has been taken away meanwhile, or an operator has sought
elsewhere in it. Such a record is *stale*. Handling it should no longer count:
its offset is not to become committable again, and no commit is to name a
partition that is not assigned, or an offset of before the seek (`Isolated`).

The revoked callback and the seek do clear the cursor. But what is handled
afterwards is recorded without a look at the partition, so the offsets of stale
records come back. And the callback clears nothing if its own commit fails.
Apart from these two the law holds: in every run in which no stale record is
handled, and the commit of a revoked callback fails only with nothing to commit
of the partitions that go, every step is isolated. A commit before the first
stream of a session has the offsets of the session before, so it is to name
assigned partitions only.
-/

open Machine

namespace Source

variable {cfg : SourceConfig} {retry : KafkaSink.RetryAsync DLQRecord} {s t u : Source}
  {e : Event} {f : Fetched}

/-- **A stale record**: its partition is not assigned, or has been sought since
the record was fetched. -/
def Stale (s : Source) (f : Fetched) : Prop :=
  (s.operator.opened = true ∧ f.tp ∉ s.operator.consumer.assignment)
    ∨ f.seq < s.history.seekMark f.tp

instance (s : Source) : DecidablePred s.Stale :=
  fun _ => inferInstanceAs (Decidable (_ ∨ _))

/-- The records an event is about: one that is acknowledged, passed over or
handed out, or those that are poison. -/
def concerned (cfg : SourceConfig) (s : Source) : Event → List Fetched
  | .acknowledge i | .transactionCommitted i => s.deliveries[i]?.toList.map Delivery.message
  | .next =>
    match s.pc with
    | .yielded i => s.deliveries[i]?.toList.map Delivery.message
    | _ => []
  | .proceed => if s.call = none then s.batch.take 1 else []
  | .deserialized => s.batch.take 1
  | .deserializedBatch _ | .malformed _ | .captured _ => s.poisonMessages cfg
  | _ => []

/-- Whether an event has its records handled: acknowledged for the first time,
committed in a transaction, or dropped. -/
def handles (cfg : SourceConfig) (retry : KafkaSink.RetryAsync DLQRecord) (s : Source) :
    Event → Bool
  | .acknowledge i => s.deliveries[i]?.any (fun d => !d.acknowledged)
  | .transactionCommitted _ => true
  | .next =>
    match s.pc with
    | .yielded i => s.deliveries[i]?.any (fun d => !d.acknowledged)
    | _ => false
  | .captured script =>
    cfg.poison.policy.shouldContinue &&
      match s.pc with
      | .capturing stage e => !Effect.raises (s.capture cfg retry stage e) (s.withScript script)
      | _ => false
  | e => e.failsBatch s.batch.length && cfg.poison.policy.shouldContinue
      && !cfg.poison.policy.capturesRecords

/-- **No stale record counts in a step**, and a commit that is issued names
assigned partitions and records fetched since they were sought. -/
structure Isolated (cfg : SourceConfig) (s : Source) (e : Event) (t : Source) : Prop where
  unchanged : ∀ f ∈ s.concerned cfg e, s.Stale f →
    t.cursor.committableOffsets = s.cursor.committableOffsets
      ∧ t.cursor.pendingCommitCount = s.cursor.pendingCommitCount
  named : ∀ c ∈ s.issued t, ∀ n ∈ c.request.named, n.1 ∈ s.operator.consumer.assignment
    ∧ ∃ f ∈ s.history.returned, f.tp = n.1 ∧ f.offset + 1 = n.2 ∧ ¬ s.Stale f

instance (s : Source) (e : Event) (t : Source) : Decidable (Isolated cfg s e t) :=
  decidable_of_iff
    ((∀ f ∈ s.concerned cfg e, s.Stale f →
      t.cursor.committableOffsets.entries = s.cursor.committableOffsets.entries
        ∧ t.cursor.pendingCommitCount = s.cursor.pendingCommitCount) ∧ _)
    ⟨fun h => ⟨fun f hf hstale => (h.1 f hf hstale).imp_left AList.ext, h.2⟩,
      fun h => ⟨fun f hf hstale => (h.unchanged f hf hstale).imp_left (congrArg AList.entries),
        h.named⟩⟩

/-- The partitions that go although the commit of their revoked callback has
failed. -/
def abandoned (s : Source) : Event → Finset TopicPartition
  | .commitFailed i =>
    match s.commits[i]?.map CommitCall.caller with
    | some (.revoked ps) => ps
    | _ => ∅
  | _ => ∅

/-- **What must be so before a step** for it to be isolated. -/
structure Isolates (cfg : SourceConfig) (retry : KafkaSink.RetryAsync DLQRecord) (s : Source)
    (e : Event) : Prop where
  /-- no stale record is handled -/
  handled : s.handles cfg retry e = true → ∀ f ∈ s.concerned cfg e, ¬ s.Stale f
  /-- the commit of a revoked callback fails with nothing to commit of what goes -/
  failed : ∀ tp ∈ s.abandoned e, s.cursor.committableOffsets.lookup tp = none
  /-- a commit before the first stream of a session names what is assigned -/
  issued : s.issuesCommit cfg e = true → s.history.streamed = true
    ∨ ∀ tp ∈ s.cursor.committableOffsets.keys, tp ∈ s.operator.consumer.assignment

instance (s : Source) (e : Event) : Decidable (Isolates cfg retry s e) :=
  decidable_of_iff (_ ∧ _ ∧ _) ⟨fun h => ⟨h.1, h.2.1, h.2.2⟩,
    fun h => ⟨h.handled, h.failed, h.issued⟩⟩

/-- **What is committable is current**: it has been fetched since its partition
was sought, and, once there has been a stream, of an assigned one. -/
structure Current (b : Books) : Prop where
  batch : b.batch ⊆ b.history.returned
  deliveries : ∀ d ∈ b.deliveries, d.message ∈ b.history.returned
  recent : ∀ tp offset, b.cursor.committableOffsets.lookup tp = some offset →
    ∃ f ∈ b.history.returned, f.tp = tp ∧ f.offset = offset ∧ b.history.seekMark tp ≤ f.seq
  assigned : b.operator.opened = true → b.history.streamed = true → ∀ tp offset,
    b.cursor.committableOffsets.lookup tp = some offset → tp ∈ b.operator.consumer.assignment

/-- **There is less in hand**: what is left is as current as it was. -/
structure Wanes (b b' : Books) : Prop where
  returned : b.history.returned ⊆ b'.history.returned
  batch : b'.batch ⊆ b.batch
  deliveries : b'.deliveries.map Delivery.message ⊆ b.deliveries.map Delivery.message
  committable : ∀ tp offset, b'.cursor.committableOffsets.lookup tp = some offset →
    b.cursor.committableOffsets.lookup tp = some offset
      ∧ b'.history.seekMark tp = b.history.seekMark tp
      ∧ (b'.operator.opened = true → b'.history.streamed = true →
        b.operator.opened = true ∧ b.history.streamed = true
          ∧ (tp ∈ b.operator.consumer.assignment → tp ∈ b'.operator.consumer.assignment))

theorem Wanes.current {b b' : Books} (h : Wanes b b') (hb : Current b) : Current b' where
  batch _ hf := h.returned (hb.batch (h.batch hf))
  deliveries d hd := by
    obtain ⟨d', hd', heq⟩ := List.mem_map.1 (h.deliveries (List.mem_map_of_mem hd))
    rw [← heq]
    exact h.returned (hb.deliveries d' hd')
  recent tp offset hl := by
    obtain ⟨hl, hmark, _⟩ := h.committable tp offset hl
    obtain ⟨f, hf, htp, hoffset, hle⟩ := hb.recent tp offset hl
    rw [hmark]
    exact ⟨f, h.returned hf, htp, hoffset, hle⟩
  assigned hopened hstreamed tp offset hl := by
    obtain ⟨hl, _, hassigned⟩ := h.committable tp offset hl
    obtain ⟨hopened, hstreamed, hmem⟩ := hassigned hopened hstreamed
    exact hmem (hb.assigned hopened hstreamed tp offset hl)

/-- Nothing is in hand that was not, of the same partitions. -/
theorem Wanes.of_eq {b b' : Books} (hreturned : b.history.returned ⊆ b'.history.returned)
    (hbatch : b'.batch ⊆ b.batch)
    (hdeliveries : b'.deliveries.map Delivery.message ⊆ b.deliveries.map Delivery.message)
    (hcursor : b'.cursor.committableOffsets = b.cursor.committableOffsets)
    (hmark : b'.history.seekMark = b.history.seekMark)
    (hstreamed : b'.history.streamed = b.history.streamed)
    (hsteady : b.operator.Steady b'.operator) : Wanes b b' where
  returned := hreturned
  batch := hbatch
  deliveries := hdeliveries
  committable tp offset hl := by
    rw [hcursor] at hl
    refine ⟨hl, by rw [hmark], fun hopened hs => ?_⟩
    rw [hsteady.opened] at hopened
    rw [hstreamed] at hs
    refine ⟨hopened, hs, fun hmem => ?_⟩
    rw [hsteady.assignment]
    exact hmem

/-- Nothing is committable any more. -/
theorem Wanes.of_empty {b b' : Books} (hreturned : b.history.returned ⊆ b'.history.returned)
    (hbatch : b'.batch ⊆ b.batch)
    (hdeliveries : b'.deliveries.map Delivery.message ⊆ b.deliveries.map Delivery.message)
    (hcursor : b'.cursor.committableOffsets = ∅) : Wanes b b' where
  returned := hreturned
  batch := hbatch
  deliveries := hdeliveries
  committable tp offset hl := by
    rw [hcursor, AList.lookup_empty] at hl
    cases hl

/-- Poison that is not captured is dropped at once. -/
theorem handles_of_failsBatch (hfails : e.failsBatch s.batch.length = true)
    (hcontinue : cfg.poison.policy.shouldContinue = true)
    (hcaptures : cfg.poison.policy.capturesRecords = false) : s.handles cfg retry e = true := by
  cases e with
  | malformed | deserializedBatch =>
    show (_ && _ && !_) = true
    rw [hfails, hcontinue, hcaptures]
    rfl
  | _ => cases hfails

/-! ## The steps that handle records -/

/-- **A record that is not stale may be handled.** -/
theorem current_insert (hs : Current s.toBooks) (hf : f ∈ s.history.returned)
    (hfresh : ¬ s.Stale f) :
    Current { s.toBooks with cursor := { s.cursor with
      committableOffsets := s.cursor.committableOffsets.insert f.tp f.offset } } where
  batch := hs.batch
  deliveries := hs.deliveries
  recent tp offset hl := by
    have hl : (s.cursor.committableOffsets.insert f.tp f.offset).lookup tp = some offset := hl
    by_cases htp : tp = f.tp
    · rw [htp, AList.lookup_insert, Option.some.injEq] at hl
      have hmark : s.history.seekMark f.tp ≤ f.seq := by
        refine Nat.not_lt.1 (fun hlt => ?_)
        exact hfresh (.inr hlt)
      exact ⟨f, hf, htp.symm, hl, htp ▸ hmark⟩
    · rw [AList.lookup_insert_ne htp] at hl
      exact hs.recent tp offset hl
  assigned hopened hstreamed tp offset hl := by
    have hl : (s.cursor.committableOffsets.insert f.tp f.offset).lookup tp = some offset := hl
    by_cases htp : tp = f.tp
    · by_contra hmem
      exact hfresh (.inl ⟨hopened, htp ▸ hmem⟩)
    · rw [AList.lookup_insert_ne htp] at hl
      exact hs.assigned hopened hstreamed tp offset hl

/-- What becomes committable, and nothing else that matters here. -/
theorem current_markDelivered (hs : Current s.toBooks) (hf : f ∈ s.history.returned)
    (hfresh : ¬ s.Stale f) : Current (s.markDelivered cfg f).toBooks := by
  refine Wanes.current ?_ (current_insert hs hf hfresh)
  have hcursor : (s.markDelivered cfg f).cursor.committableOffsets
      = s.cursor.committableOffsets.insert f.tp f.offset := by
    unfold markDelivered recordHandled CursorState.markDeliveredMessage
    dsimp only
    split <;> rfl
  exact .of_eq (List.Subset.refl _) (List.Subset.refl _) (List.Subset.refl _) hcursor rfl rfl
    (refl_of Operator.Steady _)

theorem current_dropMessages {messages : List Fetched} (hs : Current s.toBooks)
    (h : ∀ f ∈ messages, f ∈ s.history.returned ∧ ¬ s.Stale f) :
    Current (s.dropMessages cfg messages).toBooks := by
  induction messages generalizing s with
  | nil => exact hs
  | cons f messages ih =>
    obtain ⟨hf, hfresh⟩ := h f List.mem_cons_self
    refine ih (current_markDelivered hs hf hfresh) (fun g hg => ?_)
    exact h g (List.mem_cons_of_mem f hg)

theorem subset_messages_set {i : ℕ} {d : Delivery} (hd : s.deliveries[i]? = some d) :
    (s.deliveries.set i { d with acknowledged := true }).map Delivery.message
      ⊆ s.deliveries.map Delivery.message := by
  rw [messages_set hd]
  exact List.Subset.refl _

/-- **A record is acknowledged or passed over.** -/
theorem current_acknowledgeDelivery {i : ℕ} {d : Delivery} {caller : Caller}
    (hs : Current s.toBooks) (hd : s.deliveries[i]? = some d) (hfresh : ¬ s.Stale d.message) :
    Current (s.acknowledgeDelivery cfg i d caller).toBooks := by
  rw [toBooks_acknowledgeDelivery]
  let u : Source :=
    { s with deliveries := s.deliveries.set i { d with acknowledged := true } }
  have hu : Current u.toBooks := by
    refine Wanes.current ?_ hs
    exact .of_eq (List.Subset.refl _) (List.Subset.refl _) (subset_messages_set hd) rfl rfl rfl
      (refl_of Operator.Steady _)
  have hmem : d.message ∈ u.history.returned := hs.deliveries d (List.mem_of_getElem? hd)
  exact current_markDelivered hu hmem hfresh

/-- A record's transaction is committed. -/
theorem current_transactionCommitted {i : ℕ} {d : Delivery} (hs : Current s.toBooks)
    (hd : s.deliveries[i]? = some d) (hfresh : ¬ s.Stale d.message) :
    Current (s.transactionCommitted i d).toBooks := by
  have hmem : d.message ∈ s.history.returned := hs.deliveries d (List.mem_of_getElem? hd)
  refine Wanes.current ?_ (current_insert hs hmem hfresh)
  exact .of_eq (List.Subset.refl _) (List.Subset.refl _) (subset_messages_set hd) rfl rfl rfl
    (refl_of Operator.Steady _)

/-- **Poison is dropped**, or fails the stream. -/
theorem current_poisonCaptured (hs : Current s.toBooks)
    (hfresh : cfg.poison.policy.shouldContinue = true →
      ∀ f ∈ s.poisonMessages cfg, ¬ s.Stale f) :
    Current (s.poisonCaptured cfg).toBooks := by
  have htaken : Wanes s.toBooks (s.takePoison (s.poisonMessages cfg)).toBooks :=
    .of_eq (List.Subset.refl _) (List.drop_subset _ _) (List.Subset.refl _) rfl rfl rfl
      (refl_of Operator.Steady _)
  unfold poisonCaptured
  dsimp only
  split
  · rename_i hcontinue
    rw [toBooks_callCommit]
    refine current_dropMessages ?_ (fun f hf => ⟨?_, hfresh hcontinue f hf⟩)
    · refine Wanes.current ?_ hs
      exact .of_eq (List.Subset.refl _) (List.drop_subset _ _) (List.Subset.refl _) rfl rfl rfl
        (refl_of Operator.Steady _)
    · exact hs.batch (subset_poisonMessages s cfg hf)
  · obtain ⟨_, _, heq⟩ :=
      (s.takePoison (s.poisonMessages cfg)).cursor.exists_currentCheckpoint_eq
    rw [heq]
    refine Wanes.current ?_ (htaken.current hs)
    exact .of_eq (List.Subset.refl _) (List.Subset.refl _) (List.Subset.refl _) rfl rfl rfl
      (refl_of Operator.Steady _)

/-! ## The other steps -/

theorem wanes_of_bootstraps (h : Bootstraps s t) : Wanes s.toBooks t.toBooks := by
  rw [h.books]
  exact .of_eq (List.Subset.refl _) (List.Subset.refl _) (List.Subset.refl _) rfl rfl rfl h.steady

theorem wanes_of_fetches {fs : List Fetched} (h : Fetches s fs t) :
    Wanes s.toBooks t.toBooks := by
  rw [h.eq]
  exact .of_eq (List.subset_append_left _ _) (List.Subset.refl _) (List.Subset.refl _) rfl rfl rfl
    ⟨rfl, rfl⟩

theorem wanes_resetForStream (s : Source) : Wanes s.toBooks s.resetForStream.toBooks :=
  .of_empty (List.Subset.refl _) (List.nil_subset _) (List.Subset.refl _) rfl

theorem wanes_syncAssignment (s : Source) : Wanes s.toBooks s.syncAssignment.toBooks :=
  .of_eq (List.Subset.refl _) (List.Subset.refl _) (List.Subset.refl _) rfl rfl rfl ⟨rfl, rfl⟩

theorem wanes_finishSeekToOffsets (s : Source) (offsets : OffsetMap) :
    Wanes s.toBooks (s.finishSeekToOffsets offsets).toBooks := by
  rcases finishSeekToOffsets_cases s offsets with heq | ⟨_, _, heq⟩ <;> rw [heq]
  · exact .of_eq (List.Subset.refl _) (List.Subset.refl _) (List.Subset.refl _) rfl rfl rfl
      (refl_of Operator.Steady _)
  · exact .of_empty (List.Subset.refl _) (List.Subset.refl _) (List.Subset.refl _) rfl

theorem wanes_beginSeek (s : Source) (partitions : Option (Finset TopicPartition)) :
    Wanes s.toBooks (s.beginSeek partitions).toBooks := by
  rcases beginSeek_cases s partitions with heq | ⟨_, heq⟩ <;> rw [heq] <;>
    exact .of_eq (List.Subset.refl _) (List.Subset.refl _) (List.Subset.refl _) rfl rfl rfl
      (refl_of Operator.Steady _)

/-- The revoked callback has cleared the cursor of what goes. -/
theorem wanes_dropRevoked (s : Source) (ps : Finset TopicPartition) :
    Wanes s.toBooks ((s.dropRevoked ps).partitionsLost ps).toBooks where
  returned := List.Subset.refl _
  batch := List.Subset.refl _
  deliveries := List.Subset.refl _
  committable tp offset hl := by
    have hl : (Dict.without ps s.cursor.committableOffsets).lookup tp = some offset := hl
    rw [Dict.lookup_without] at hl
    split at hl
    · cases hl
    · rename_i hnot
      exact ⟨hl, rfl, fun hopened hstreamed =>
        ⟨hopened, hstreamed, fun hmem => Finset.mem_sdiff.2 ⟨hmem, hnot⟩⟩⟩

/-- The partitions go, and there was nothing to commit of them. -/
theorem wanes_partitionsLost {ps : Finset TopicPartition}
    (h : ∀ tp ∈ ps, s.cursor.committableOffsets.lookup tp = none) :
    Wanes s.toBooks (s.partitionsLost ps).toBooks where
  returned := List.Subset.refl _
  batch := List.Subset.refl _
  deliveries := List.Subset.refl _
  committable tp offset hl := by
    refine ⟨hl, rfl, fun hopened hstreamed => ⟨hopened, hstreamed, fun hmem => ?_⟩⟩
    refine Finset.mem_sdiff.2 ⟨hmem, fun htp => ?_⟩
    have hl : s.cursor.committableOffsets.lookup tp = some offset := hl
    rw [h tp htp] at hl
    cases hl

/-- A session that is over, or has not had a stream, assigns nothing. -/
theorem wanes_unstreamed {b b' : Books} (hreturned : b'.history.returned = b.history.returned)
    (hbatch : b'.batch = b.batch) (hdeliveries : b'.deliveries = b.deliveries)
    (hcursor : b'.cursor = b.cursor) (hmark : b'.history.seekMark = b.history.seekMark)
    (h : b'.operator.opened = false ∨ b'.history.streamed = false) : Wanes b b' where
  returned := by rw [hreturned]; exact List.Subset.refl _
  batch := by rw [hbatch]; exact List.Subset.refl _
  deliveries := by rw [hdeliveries]; exact List.Subset.refl _
  committable tp offset hl := by
    rw [hcursor] at hl
    refine ⟨hl, by rw [hmark], fun hopened hstreamed => ?_⟩
    rcases h with h | h
    · rw [h] at hopened
      cases hopened
    · rw [h] at hstreamed
      cases hstreamed

/-! ## Runs -/

/-- An operator call neither opens the consumer nor assigns anything. -/
theorem wanes_operate {α : Type} {m : OperatorM α} (hm : Effect.Respects Operator.Unmoved m) :
    Wanes s.toBooks (s.operate m).toBooks :=
  .of_eq (List.Subset.refl _) (List.Subset.refl _) (List.Subset.refl _) rfl rfl rfl
    (hm s.operator).finalState.toSteady

/-- **One step keeps what is committable current.** -/
theorem current_step (hs : Current s.toBooks) (hg : Isolates cfg retry s e)
    (h : s.step cfg retry e = some t) : Current t.toBooks := by
  -- it is enough that the books wane: no record is new, and no offset
  have hwane : ∀ {b : Books}, Wanes s.toBooks b → Current b := fun hb => hb.current hs
  have hsame : ∀ {b : Books}, b.history = s.history → b.batch = s.batch →
      b.deliveries = s.deliveries → b.cursor.committableOffsets = s.cursor.committableOffsets →
      b.operator = s.operator → Current b := by
    intro b hhistory hbatch hdeliveries hcursor hoperator
    refine hwane (.of_eq ?_ ?_ ?_ hcursor ?_ ?_ ?_)
    · rw [hhistory]
      exact List.Subset.refl _
    · rw [hbatch]
      exact List.Subset.refl _
    · rw [hdeliveries]
      exact List.Subset.refl _
    · rw [hhistory]
    · rw [hhistory]
    · rw [hoperator]
      exact refl_of Operator.Steady _
  cases step_reacts h with
  | idles _ h =>
    rw [h.books]
    exact hs
  | errs _ _ _ _ _ _ hbooks h =>
    rw [h.books, hbooks]
    exact hsame rfl rfl rfl rfl rfl
  | opens => exact hwane (wanes_unstreamed rfl rfl rfl rfl rfl (.inr rfl))
  | closes => exact hwane (wanes_unstreamed rfl rfl rfl rfl rfl (.inl rfl))
  | checkpoints =>
    obtain ⟨_, _, heq⟩ := s.cursor.exists_currentCheckpoint_eq
    rw [heq]
    exact hsame rfl rfl rfl rfl rfl
  | starts =>
    exact (wanes_of_bootstraps (bootstraps_startStream s)).current (hwane (wanes_resetForStream s))
  | refreshes _ hprobe =>
    obtain ⟨fs, hfs, _⟩ := probe_fetches hprobe
    exact (wanes_of_bootstraps (bootstraps_applyInitialPositioning _).of_sync).current
      (hwane (wanes_of_fetches hfs))
  | positions _ hprobe =>
    obtain ⟨fs, hfs, _⟩ := probe_fetches hprobe
    exact (wanes_of_bootstraps (bootstraps_seekAndStart _).of_sync).current
      (hwane (wanes_of_fetches hfs))
  -- a batch that is received is of records that have just been returned
  | @receives _ idlePolls messages u _ hfetch hne =>
    have hfs := fetchAll_fetches hfetch
    have hu : Current u.toBooks := hwane (wanes_of_fetches hfs)
    rw [receive_of_ne_nil hne]
    refine ⟨fun f hf => ?_, hu.deliveries, hu.recent, hu.assigned⟩
    show f ∈ u.history.returned
    rw [hfs.returned]
    exact List.mem_append_right _ hf
  | @emits _ f rest _ _ _ hbatch =>
    have hbatch : f ∈ s.batch ∧ rest ⊆ s.batch := by
      rw [hbatch]
      exact ⟨List.mem_cons_self, List.subset_cons_self f rest⟩
    refine ⟨fun g hg => hs.batch (hbatch.2 hg), fun d hd => ?_, hs.recent, hs.assigned⟩
    rcases List.mem_append.1 hd with hd | hd
    · exact hs.deliveries d hd
    · rw [List.mem_singleton.1 hd]
      exact hs.batch hbatch.1
  | @passesOver i d _ hpc hd hack =>
    have hfresh : ¬ s.Stale d.message := by
      refine hg.handled ?_ d.message ?_
      · simp [handles, hpc, hd, hack]
      · simp [concerned, hpc, hd]
    have hu : Current s.clearActiveDelivery.toBooks := hs
    exact current_acknowledgeDelivery hu hd hfresh
  | @acknowledges i d _ hd hack =>
    have hfresh : ¬ s.Stale d.message := by
      refine hg.handled ?_ d.message ?_
      · simp [handles, hd, hack]
      · simp [concerned, hd]
    exact current_acknowledgeDelivery hs hd hfresh
  | @transacts i d hd =>
    have hfresh : ¬ s.Stale d.message := by
      refine hg.handled rfl d.message ?_
      simp [concerned, hd]
    exact current_transactionCommitted hs hd hfresh
  | @captures script stage e _ hpc hraises =>
    have hu : Current (s.runPoison script (s.capture cfg retry stage e)).toBooks :=
      hsame rfl rfl rfl rfl rfl
    refine current_poisonCaptured hu (fun hcontinue => ?_)
    refine hg.handled ?_
    simp [handles, hpc, hcontinue, hraises]
  | @drops e u _ _ _ hcaptures hu hfails =>
    have hfresh : cfg.poison.policy.shouldContinue = true →
        ∀ f ∈ s.poisonMessages cfg, ¬ s.Stale f := by
      intro hcontinue
      have hf := hg.handled (handles_of_failsBatch hfails hcontinue hcaptures)
      cases e <;> first | exact hf | cases hfails
    rcases hu with rfl | rfl
    · have hu : Current (u.countErrors cfg).toBooks := hsame rfl rfl rfl rfl rfl
      exact current_poisonCaptured hu hfresh
    · have hu : Current (s.clearActiveDelivery.countErrors cfg).toBooks :=
        hsame rfl rfl rfl rfl rfl
      exact current_poisonCaptured hu hfresh
  | @committed i c _ hc =>
    have hu : Current ((s.dropCommit i).recordCommit c.request).toBooks := by
      refine hwane (.of_eq ?_ ?_ ?_ rfl rfl rfl (refl_of Operator.Steady _)) <;>
        exact List.Subset.refl _
    rcases commitReturns_cases ((s.dropCommit i).recordCommit c.request) c.caller with
      hb | ⟨ps, _, hb⟩ | ⟨_, hb⟩ <;> rw [hb]
    · exact hu
    · exact (wanes_dropRevoked _ ps).current hu
    · refine Wanes.current ?_ hu
      exact wanes_unstreamed rfl rfl rfl rfl rfl (.inl rfl)
  | @commitFailed i c _ hc =>
    have hu : Current (s.dropCommit i).toBooks := hsame rfl rfl rfl rfl rfl
    rcases commitRaises_cases (s.dropCommit i) c.caller with hb | ⟨ps, hps, hb⟩ | ⟨_, hb⟩ <;>
      rw [hb]
    · exact hu
    · have habandoned : s.abandoned (.commitFailed i) = ps := by
        simp [abandoned, hc, hps]
      refine (wanes_partitionsLost ?_).current hu
      exact habandoned ▸ hg.failed
    · refine Wanes.current ?_ hu
      exact wanes_unstreamed rfl rfl rfl rfl rfl (.inl rfl)
  | revokes => exact hwane (wanes_dropRevoked _ _)
  | @assigns ps position =>
    have hsteady := ((Operator.unmoved_handlePartitionsAssigned ps)
      { s.operator with consumer := s.operator.consumer.assign ps position }).finalState.toSteady
    refine hwane ⟨List.Subset.refl _, List.Subset.refl _, List.Subset.refl _,
      fun tp offset hl => ⟨hl, rfl, fun hopened hstreamed => ?_⟩⟩
    refine ⟨hsteady.opened ▸ hopened, hstreamed, fun hmem => ?_⟩
    show tp ∈ (s.partitionsAssigned ps position).operator.consumer.assignment
    rw [show (s.partitionsAssigned ps position).operator.consumer.assignment
      = s.operator.consumer.assignment ∪ ps from hsteady.assignment]
    exact Finset.mem_union_left ps hmem
  | pauses => exact hwane (wanes_operate (Operator.unmoved_pause _))
  | unpauses => exact hwane (wanes_operate (Operator.unmoved_resume _))
  | beginsSeek => exact (wanes_beginSeek _ _).current (hwane (wanes_syncAssignment s))
  | seeks => exact (wanes_finishSeekToOffsets _ _).current (hwane (wanes_syncAssignment s))
  | @probesForSeek i _ offsets u _ hprobe =>
    obtain ⟨fs, hfs, _⟩ := probe_fetches hprobe
    have hdrop : Current (s.dropCall i).toBooks := hsame rfl rfl rfl rfl rfl
    have hu : Current u.toBooks := (wanes_of_fetches hfs).current hdrop
    exact (wanes_finishSeekToOffsets _ offsets).current ((wanes_syncAssignment u).current hu)
  | @probesToBeginSeek i _ partitions u _ hprobe =>
    obtain ⟨fs, hfs, _⟩ := probe_fetches hprobe
    have hdrop : Current (s.dropCall i).toBooks := hsame rfl rfl rfl rfl rfl
    have hu : Current u.toBooks := (wanes_of_fetches hfs).current hdrop
    exact (wanes_beginSeek _ partitions).current ((wanes_syncAssignment u).current hu)
  | @seeked i targets position =>
    refine hwane (.of_empty ?_ ?_ ?_ rfl) <;> exact List.Subset.refl _
  | seekFailed =>
    refine hwane (.of_eq ?_ ?_ ?_ rfl rfl rfl ⟨rfl, rfl⟩) <;> exact List.Subset.refl _
  | _ => exact hsame rfl rfl rfl rfl rfl

/-- **A commit that is issued names what is current.** -/
theorem named_of_issued {n : TopicPartition × ℤ} (hs : Current s.toBooks)
    (hissued : s.history.streamed = true
      ∨ ∀ tp ∈ s.cursor.committableOffsets.keys, tp ∈ s.operator.consumer.assignment)
    (hopened : s.operator.opened = true)
    (hn : n ∈ (CommitRequest.of s.cursor.buildCommitOffsets).named) :
    n.1 ∈ s.operator.consumer.assignment
      ∧ ∃ f ∈ s.history.returned, f.tp = n.1 ∧ f.offset + 1 = n.2 ∧ ¬ s.Stale f := by
  obtain ⟨offset, hl, hoffset⟩ := mem_named_buildCommitOffsets_iff.1 hn
  have hassigned : n.1 ∈ s.operator.consumer.assignment := by
    rcases hissued with hstreamed | hkeys
    · exact hs.assigned hopened hstreamed n.1 offset hl
    · refine hkeys n.1 (AList.mem_keys.1 (AList.lookup_isSome.1 ?_))
      rw [hl]
      rfl
  obtain ⟨f, hf, htp, hfoffset, hmark⟩ := hs.recent n.1 offset hl
  refine ⟨hassigned, f, hf, htp, by rw [hfoffset]; exact hoffset, ?_⟩
  rintro (⟨_, hnot⟩ | hlt)
  · exact hnot (htp ▸ hassigned)
  · rw [htp] at hlt
    exact absurd hmark (Nat.not_le.2 hlt)

/-- Poison that fails the stream is not recorded. -/
theorem tracks_poisonCaptured (h : cfg.poison.policy.shouldContinue = false) :
    (s.poisonCaptured cfg).cursor.committableOffsets = s.cursor.committableOffsets
      ∧ (s.poisonCaptured cfg).cursor.pendingCommitCount = s.cursor.pendingCommitCount := by
  obtain ⟨_, _, heq⟩ := (s.takePoison (s.poisonMessages cfg)).cursor.exists_currentCheckpoint_eq
  unfold poisonCaptured
  simp only [h, Bool.false_eq_true, if_false]
  rw [heq]
  exact ⟨rfl, rfl⟩

/-- **One step is isolated**, if no stale record is handled in it. -/
theorem isolated_step (hs : Current s.toBooks) (hg : Isolates cfg retry s e)
    (h : s.step cfg retry e = some t) : Isolated cfg s e t where
  unchanged f hf hstale := by
    have hno : ∀ {P : Prop}, s.handles cfg retry e = true → P :=
      fun hhandles => absurd hstale (hg.handled hhandles f hf)
    cases step_reacts h with
    | idles _ h =>
      rw [h.books]
      exact ⟨rfl, rfl⟩
    | errs _ _ _ _ _ _ hbooks h =>
      rw [h.books, hbooks]
      exact ⟨rfl, rfl⟩
    | passesOver _ hpc hd hack => exact hno (by simp [handles, hpc, hd, hack])
    | acknowledges _ hd hack => exact hno (by simp [handles, hd, hack])
    | transacts => exact hno rfl
    | captures _ hpc hraises =>
      cases hcontinue : cfg.poison.policy.shouldContinue with
      | true => exact hno (by simp [handles, hpc, hcontinue, hraises])
      | false => exact tracks_poisonCaptured hcontinue
    | @drops e u _ _ _ hcaptures hu hfails =>
      cases hcontinue : cfg.poison.policy.shouldContinue with
      | true =>
        exact hno (handles_of_failsBatch hfails hcontinue hcaptures)
      | false => rcases hu with rfl | rfl <;> exact tracks_poisonCaptured hcontinue
    | revokes hcall =>
      simp only [concerned, hcall] at hf
      cases hf
    | beginsSeek =>
      rcases beginSeek_cases s.syncAssignment _ with heq | ⟨_, heq⟩ <;> rw [heq] <;>
        exact ⟨rfl, rfl⟩
    | _ => first | exact ⟨rfl, rfl⟩ | cases hf
  named c hc n hn := by
    rcases issued_step h with hnone | ⟨hissues, hopened, caller, hbooks⟩
    · rw [hnone] at hc
      cases hc
    · rw [issued_of_books hbooks, List.mem_singleton] at hc
      rw [hc] at hn
      exact named_of_issued hs (hg.issued hissues) hopened hn

/-- Two records of a partition, the first of them handed out. -/
def firstOfTwo : List Event :=
  [.open (fun _ => 0), .assigned {⟨"events", 0⟩} (fun _ => 0), .stream,
    .polled [{ tp := ⟨"events", 0⟩, offset := 0 }, { tp := ⟨"events", 0⟩, offset := 1 }],
    .deserialized]

/-- The first is acknowledged, and committed when the partition is taken away.
When it is back the second is handed out and passed over, and a commit issued. -/
def acknowledgedBeforeRevoked : List Event :=
  firstOfTwo ++ [.acknowledge 0, .proceed, .revoked {⟨"events", 0⟩}, .proceed, .committed 0,
    .assigned {⟨"events", 0⟩} (fun _ => 1), .next, .proceed, .deserialized, .next, .proceed,
    .commitNow]

/-- The partition is taken away before the first is acknowledged. -/
def acknowledgedAfterRevoked : List Event :=
  firstOfTwo ++ [.revoked {⟨"events", 0⟩}, .proceed, .acknowledge 0]

end Source

import AgoraPlugins.Kafka.Resumption

/-!
# The checkpoints of a resumed stream

A stream starts with nothing processed. A checkpoint it gives names the
partitions of which it has handed out or dropped a record, and no others, as
long as nothing of an earlier stream is recorded late: a partition of the
checkpoint it resumed from that has had no record since is not in it, and a
source resumed from the new one reads that partition from where its group
stands.

What a checkpoint does name is never behind the one before. From the moment the
stream is positioned, a partition it resumed is in every checkpoint once a
record of it has been handed out or dropped, at an offset past the saved one;
until the partition is revoked, or the operator's seek drops all that was
tracked.
-/

open Machine

namespace Source

variable {cfg : SourceConfig} {retry : KafkaSink.RetryAsync DLQRecord} {s t u : Source}
  {e : Event} {tp : TopicPartition} {offset : ℤ} {n m : ℕ} {b b' : Books}

/-! ## The checkpoint is that of the present -/

/-- What the steps do to the checkpoint's part of the cursor. -/
theorem coherent_markDelivered (f : Fetched) : (s.markDelivered cfg f).cursor.Coherent := by
  unfold markDelivered recordHandled CursorState.markDeliveredMessage
  dsimp only
  split <;> exact .of_dirty nofun rfl

theorem coherent_dropMessages (hs : s.cursor.Coherent) (messages : List Fetched) :
    (s.dropMessages cfg messages).cursor.Coherent :=
  dropMessages_keeps (P := fun s => s.cursor.Coherent)
    (fun _ f _ => coherent_markDelivered f) hs messages

theorem coherent_poisonCaptured (hs : s.cursor.Coherent) :
    (s.poisonCaptured cfg).cursor.Coherent := by
  unfold poisonCaptured
  dsimp only
  split
  · rw [toBooks_callCommit]
    refine coherent_dropMessages ?_ _
    exact hs
  · exact CursorState.Coherent.currentCheckpoint hs

theorem coherent_finishSeekToOffsets (hs : s.cursor.Coherent) (offsets : OffsetMap) :
    (s.finishSeekToOffsets offsets).cursor.Coherent := by
  rcases finishSeekToOffsets_cases s offsets with heq | ⟨_, _, heq⟩ <;> rw [heq]
  · exact hs
  · exact .of_empty rfl rfl

theorem coherent_beginSeek (hs : s.cursor.Coherent) (partitions : Option (Finset TopicPartition)) :
    (s.beginSeek partitions).cursor.Coherent := by
  rcases beginSeek_cases s partitions with heq | ⟨_, heq⟩ <;> rw [heq] <;> exact hs

theorem coherent_of_bootstraps (hs : s.cursor.Coherent) (h : Bootstraps s t) :
    t.cursor.Coherent := by
  rw [h.books]
  exact hs.of_eq rfl rfl rfl rfl

theorem coherent_of_fetches {fs : List Fetched} (hs : s.cursor.Coherent) (h : Fetches s fs t) :
    t.cursor.Coherent := by
  rw [h.eq]
  exact hs

/-- **One step keeps the checkpoint that of the present.** -/
theorem coherent_step (hs : s.cursor.Coherent) (h : s.step cfg retry e = some t) :
    t.cursor.Coherent := by
  cases step_reacts h with
  | idles _ h =>
    rw [h.books]
    exact hs
  | errs _ _ _ _ _ _ hbooks h =>
    rw [h.books, hbooks]
    exact hs
  | resumes => exact hs.of_eq rfl rfl rfl rfl
  | checkpoints => exact hs.currentCheckpoint
  | starts =>
    have hreset : s.resetForStream.cursor.Coherent := .of_empty rfl rfl
    exact coherent_of_bootstraps hreset (bootstraps_startStream s)
  | refreshes _ hprobe =>
    obtain ⟨fs, hfs, _⟩ := probe_fetches hprobe
    exact coherent_of_bootstraps (coherent_of_fetches hs hfs)
      (bootstraps_applyInitialPositioning _).of_sync
  | positions _ hprobe =>
    obtain ⟨fs, hfs, _⟩ := probe_fetches hprobe
    exact coherent_of_bootstraps (coherent_of_fetches hs hfs) (bootstraps_seekAndStart _).of_sync
  | receives _ hfetch hne =>
    rw [receive_of_ne_nil hne]
    have hu := coherent_of_fetches hs (fetchAll_fetches hfetch)
    exact hu
  | emits => exact .of_dirty nofun rfl
  | passesOver | acknowledges =>
    rw [toBooks_acknowledgeDelivery]
    exact coherent_markDelivered _
  | transacts => exact .of_dirty nofun rfl
  | captures =>
    refine coherent_poisonCaptured ?_
    exact hs
  | drops _ _ _ _ hu =>
    refine coherent_poisonCaptured ?_
    rcases hu with rfl | rfl <;> exact hs
  | @committed i c =>
    have hu : ((s.dropCommit i).recordCommit c.request).cursor.Coherent := hs.of_eq rfl rfl rfl rfl
    rcases commitReturns_cases ((s.dropCommit i).recordCommit c.request) c.caller with
      hb | ⟨ps, _, hb⟩ | ⟨_, hb⟩ <;> rw [hb]
    · exact hu
    · exact hu.dropRevoked ps
    · exact hu
  | @commitFailed i c =>
    rcases commitRaises_cases (s.dropCommit i) c.caller with hb | ⟨ps, _, hb⟩ | ⟨_, hb⟩ <;>
      rw [hb] <;> exact hs
  | @revokes ps => exact hs.dropRevoked ps
  | beginsSeek =>
    refine coherent_beginSeek ?_ _
    exact hs
  | seeks =>
    refine coherent_finishSeekToOffsets ?_ _
    exact hs
  | probesForSeek _ hprobe =>
    obtain ⟨fs, hfs, _⟩ := probe_fetches hprobe
    have hu := coherent_of_fetches (s := s.dropCall _) hs hfs
    refine coherent_finishSeekToOffsets ?_ _
    exact hu
  | probesToBeginSeek _ hprobe =>
    obtain ⟨fs, hfs, _⟩ := probe_fetches hprobe
    have hu := coherent_of_fetches (s := s.dropCall _) hs hfs
    refine coherent_beginSeek ?_ _
    exact hu
  | seeked => exact .of_empty rfl rfl
  | _ => exact hs

/-! ## What a resumed partition has in it -/

/-- **A partition has been touched**: a record of it has been handed out after
the first `n` deliveries, or dropped after the first `m` drops. -/
def Touched (tp : TopicPartition) (n m : ℕ) (b : Books) : Prop :=
  ∃ f, (f ∈ handedSince b n ∨ f ∈ b.history.dropped.drop m) ∧ f.tp = tp

/-- **What is processed of the partition** is past the offset, and is something
just if the partition has been touched. -/
structure Chained (tp : TopicPartition) (offset : ℤ) (n m : ℕ) (b : Books) : Prop where
  recorded : ∀ o, b.cursor.processedOffsets.lookup tp = some o → offset ≤ o
  touched : Touched tp n m b ↔ b.cursor.processedOffsets.lookup tp ≠ none
  length : m ≤ b.history.dropped.length

/-- Nothing of the partition has been recorded or forgotten. -/
theorem Chained.of_eq (hb : Chained tp offset n m b)
    (hprocessed : b'.cursor.processedOffsets.lookup tp = b.cursor.processedOffsets.lookup tp)
    (hdeliveries : b'.deliveries.map Delivery.message = b.deliveries.map Delivery.message)
    (hdropped : b'.history.dropped = b.history.dropped) : Chained tp offset n m b' where
  recorded := by
    rw [hprocessed]
    exact hb.recorded
  touched := by
    unfold Touched handedSince
    rw [hprocessed, hdeliveries, hdropped]
    exact hb.touched
  length := hdropped ▸ hb.length

/-- **A record is recorded.** If it is of the partition it is past the offset, and
the partition is touched by it and no other. -/
theorem Chained.insert {f : Fetched} (hb : Chained tp offset n m b)
    (hprocessed : b'.cursor.processedOffsets = b.cursor.processedOffsets.insert f.tp f.offset)
    (hle : f.tp = tp → offset ≤ f.offset)
    (htouched : Touched tp n m b' ↔ Touched tp n m b ∨ f.tp = tp)
    (hdropped : b'.history.dropped = b.history.dropped) : Chained tp offset n m b' where
  recorded o hl := by
    rw [hprocessed] at hl
    by_cases htp : tp = f.tp
    · rw [htp, AList.lookup_insert, Option.some.injEq] at hl
      rw [← hl]
      exact hle htp.symm
    · rw [AList.lookup_insert_ne htp] at hl
      exact hb.recorded o hl
  touched := by
    rw [htouched, hprocessed]
    by_cases htp : tp = f.tp
    · rw [htp, AList.lookup_insert]
      exact iff_of_true (.inr rfl) nofun
    · rw [AList.lookup_insert_ne htp, ← hb.touched]
      exact or_iff_left (fun heq => htp heq.symm)
  length := hdropped ▸ hb.length

/-- A record that is handled is recorded. -/
theorem processedOffsets_markDelivered (f : Fetched) :
    (s.markDelivered cfg f).cursor.processedOffsets
      = s.cursor.processedOffsets.insert f.tp f.offset := by
  unfold markDelivered recordHandled CursorState.markDeliveredMessage
  dsimp only
  split <;> rfl

/-- A record that has touched the partition before is handled. -/
theorem chained_markDelivered {f : Fetched} (hs : Chained tp offset n m s.toBooks)
    (hle : f.tp = tp → offset ≤ f.offset) (htouched : f.tp = tp → Touched tp n m s.toBooks) :
    Chained tp offset n m (s.markDelivered cfg f).toBooks :=
  hs.insert (processedOffsets_markDelivered f) hle
    ⟨.inl, fun h => h.elim id htouched⟩ rfl

/-- What is processed once messages are dropped. -/
theorem lookup_processedOffsets_dropMessages (messages : List Fetched) :
    (s.dropMessages cfg messages).cursor.processedOffsets.lookup tp ≠ none
      ↔ s.cursor.processedOffsets.lookup tp ≠ none ∨ ∃ f ∈ messages, f.tp = tp := by
  induction messages generalizing s with
  | nil => exact (or_iff_left (fun ⟨f, hf, _⟩ => List.not_mem_nil hf)).symm
  | cons f messages ih =>
    refine ih.trans ?_
    rw [processedOffsets_markDelivered]
    by_cases htp : tp = f.tp
    · rw [htp, AList.lookup_insert]
      exact iff_of_true (.inl nofun) (.inr ⟨f, List.mem_cons_self, rfl⟩)
    · rw [AList.lookup_insert_ne htp]
      refine or_congr_right ⟨fun ⟨g, hg, hgtp⟩ => ⟨g, List.mem_cons_of_mem f hg, hgtp⟩, ?_⟩
      rintro ⟨g, hg, hgtp⟩
      rcases List.mem_cons.1 hg with rfl | hg
      · exact absurd hgtp.symm htp
      · exact ⟨g, hg, hgtp⟩

theorem recorded_dropMessages {messages : List Fetched}
    (hs : ∀ o, s.cursor.processedOffsets.lookup tp = some o → offset ≤ o)
    (hle : ∀ f ∈ messages, f.tp = tp → offset ≤ f.offset) :
    ∀ o, (s.dropMessages cfg messages).cursor.processedOffsets.lookup tp = some o →
      offset ≤ o := by
  induction messages generalizing s with
  | nil => exact hs
  | cons f messages ih =>
    refine ih (fun o hl => ?_) (fun g hg => hle g (List.mem_cons_of_mem f hg))
    rw [processedOffsets_markDelivered] at hl
    by_cases htp : tp = f.tp
    · rw [htp, AList.lookup_insert, Option.some.injEq] at hl
      rw [← hl]
      exact hle f List.mem_cons_self htp.symm
    · rw [AList.lookup_insert_ne htp] at hl
      exact hs o hl

/-- **Poison is dropped**, or fails the stream. -/
theorem chained_poisonCaptured (hs : Chained tp offset n m s.toBooks)
    (hle : ∀ f ∈ s.poisonMessages cfg, f.tp = tp → offset ≤ f.offset) :
    Chained tp offset n m (s.poisonCaptured cfg).toBooks := by
  unfold poisonCaptured
  dsimp only
  split
  · rw [toBooks_callCommit]
    refine ⟨recorded_dropMessages ?_ hle, ?_, ?_⟩
    · exact hs.recorded
    · rw [lookup_processedOffsets_dropMessages]
      refine Iff.trans ?_ (or_congr_left hs.touched)
      rw [dropMessages_eq]
      have hdrop : (s.history.dropped ++ s.poisonMessages cfg).drop m
          = s.history.dropped.drop m ++ s.poisonMessages cfg := by
        rw [List.drop_append_of_le_length hs.length]
      constructor
      · rintro ⟨f, hf | hf, htp⟩
        · exact .inl ⟨f, .inl hf, htp⟩
        · have hf : f ∈ (s.history.dropped ++ s.poisonMessages cfg).drop m := hf
          rw [hdrop, List.mem_append] at hf
          exact hf.imp (fun hf => ⟨f, .inr hf, htp⟩) (fun hf => ⟨f, hf, htp⟩)
      · rintro (⟨f, hf, htp⟩ | ⟨f, hf, htp⟩)
        · refine ⟨f, hf.imp_right (fun hf => ?_), htp⟩
          show f ∈ (s.history.dropped ++ s.poisonMessages cfg).drop m
          rw [hdrop]
          exact List.mem_append_left _ hf
        · refine ⟨f, .inr ?_, htp⟩
          show f ∈ (s.history.dropped ++ s.poisonMessages cfg).drop m
          rw [hdrop]
          exact List.mem_append_right _ hf
    · rw [dropMessages_eq]
      show m ≤ (s.history.dropped ++ s.poisonMessages cfg).length
      rw [List.length_append]
      exact Nat.le_add_right_of_le hs.length
  · obtain ⟨_, _, heq⟩ :=
      (s.takePoison (s.poisonMessages cfg)).cursor.exists_currentCheckpoint_eq
    rw [heq]
    exact hs.of_eq rfl rfl rfl

/-! ## Runs -/

/-- The records of an earlier stream that an event records: one of the first `n`
deliveries that is acknowledged for the first time or committed in a
transaction. -/
def recordsEarlier (n : ℕ) (s : Source) : Event → List Fetched
  | .acknowledge i =>
    if i < n then (s.deliveries[i]?.filter (fun d => !d.acknowledged)).toList.map Delivery.message
    else []
  | .transactionCommitted i =>
    if i < n then s.deliveries[i]?.toList.map Delivery.message else []
  | _ => []

/-- **Whether a partition's progress is given up by an event**: it is revoked, or
an operator's seek drops all that is tracked. -/
def Forgets (tp : TopicPartition) (s : Source) : Event → Prop
  | .proceed =>
    match s.call with
    | some (.revoked ps, _) => tp ∈ ps
    | _ => False
  | .committed i =>
    match s.commits[i]?.map CommitCall.caller with
    | some (.revoked ps) => tp ∈ ps
    | _ => False
  | .seekToOffsets _ | .operatorProbed _ _ | .seeked _ _ => True
  | _ => False

/-- The same as a computation. -/
def forgets (tp : TopicPartition) (s : Source) : Event → Bool
  | .proceed =>
    match s.call with
    | some (.revoked ps, _) => tp ∈ ps
    | _ => false
  | .committed i =>
    match s.commits[i]?.map CommitCall.caller with
    | some (.revoked ps) => tp ∈ ps
    | _ => false
  | .seekToOffsets _ | .operatorProbed _ _ | .seeked _ _ => true
  | _ => false

theorem forgets_iff (tp : TopicPartition) (s : Source) (e : Event) :
    forgets tp s e = true ↔ Forgets tp s e := by
  unfold forgets Forgets
  split
  next => split <;> simp
  next => split <;> simp
  all_goals simp

instance (s : Source) (e : Event) : Decidable (Forgets tp s e) :=
  decidable_of_iff (forgets tp s e = true) (forgets_iff tp s e)

/-- **What must be so before a step** for the partition's progress to go on: it is
not read from elsewhere, not given up, and no record of an earlier stream is
recorded for it. -/
structure Continues (tp : TopicPartition) (n : ℕ) (s : Source) (e : Event) : Prop where
  reads : ¬ Repositions tp s e
  retains : ¬ Forgets tp s e
  current : ∀ f ∈ s.recordsEarlier n e, f.tp ≠ tp

instance (s : Source) (e : Event) : Decidable (Continues tp n s e) :=
  decidable_of_iff (_ ∧ _ ∧ _) ⟨fun h => ⟨h.1, h.2.1, h.2.2⟩,
    fun h => ⟨h.reads, h.retains, h.current⟩⟩

/-- **The progress of a partition in a stream**: all of it is past the offset,
and the record in the pipeline's hands is of the stream. -/
structure Progresses (tp : TopicPartition) (offset : ℤ) (n m : ℕ) (s : Source) : Prop where
  beyond : Beyond tp offset n s.toBooks
  chained : Chained tp offset n m s.toBooks
  coherent : s.cursor.Coherent
  yielded : ∀ i, s.pc = .yielded i → n ≤ i

/-- A delivery of the stream has been handed out in it. -/
theorem mem_handedSince {i : ℕ} {d : Delivery} (hd : b.deliveries[i]? = some d) (hi : n ≤ i) :
    d.message ∈ handedSince b n := by
  have hget : (handedSince b n)[i - n]? = some d.message := by
    unfold handedSince
    rw [List.getElem?_drop, List.getElem?_map, Nat.add_sub_cancel' hi, hd]
    rfl
  exact List.mem_of_getElem? hget

theorem mem_handedSince_set {i : ℕ} {d : Delivery} (hd : s.deliveries[i]? = some d) (hi : n ≤ i) :
    d.message ∈ ((s.deliveries.set i { d with acknowledged := true }).map
      Delivery.message).drop n := by
  rw [messages_set hd]
  exact mem_handedSince (b := s.toBooks) hd hi

/-- A record of the stream that is handed out is past the offset. -/
theorem Beyond.le_of_delivery {i : ℕ} {d : Delivery} (hb : Beyond tp offset n b)
    (hd : b.deliveries[i]? = some d) (hi : n ≤ i) (htp : d.message.tp = tp) :
    offset ≤ d.message.offset :=
  hb.handed d.message (mem_handedSince hd hi) htp

/-- An acknowledgement, or what passes for one, of a record of the stream or of
another partition. -/
theorem chained_acknowledgeDelivery {i : ℕ} {d : Delivery} {caller : Caller}
    (hs : Chained tp offset n m s.toBooks) (hd : s.deliveries[i]? = some d)
    (hle : d.message.tp = tp → offset ≤ d.message.offset) (hi : d.message.tp = tp → n ≤ i) :
    Chained tp offset n m (s.acknowledgeDelivery cfg i d caller).toBooks := by
  rw [toBooks_acknowledgeDelivery]
  refine chained_markDelivered ?_ hle
    (fun htp => ⟨d.message, .inl (mem_handedSince_set hd (hi htp)), htp⟩)
  exact hs.of_eq rfl (messages_set hd) rfl

/-- **One step goes on with what is recorded.** -/
theorem chained_step (hs : Progresses tp offset n m s) (hg : Continues tp n s e)
    (h : s.step cfg retry e = some t) : Chained tp offset n m t.toBooks := by
  have hc := hs.chained
  -- poison is dropped from the batch, which is beyond the offset
  have hpoison : ∀ {u : Source}, Chained tp offset n m u.toBooks → u.batch = s.batch →
      Chained tp offset n m (u.poisonCaptured cfg).toBooks := by
    intro u hu hbatch
    refine chained_poisonCaptured hu (fun f hf htp => hs.beyond.batch f ?_ htp)
    have hf := subset_poisonMessages u cfg hf
    rw [hbatch] at hf
    exact hf
  cases step_reacts h with
  | idles _ h =>
    rw [h.books]
    exact hc
  | errs _ _ _ _ _ _ hbooks h =>
    rw [h.books, hbooks]
    exact hc.of_eq rfl rfl rfl
  | opens | starts | refreshes | positions => exact absurd trivial hg.reads
  | seeks | probesForSeek | probesToBeginSeek | seeked => exact absurd trivial hg.retains
  | checkpoints =>
    obtain ⟨_, _, heq⟩ := s.cursor.exists_currentCheckpoint_eq
    rw [heq]
    exact hc.of_eq rfl rfl rfl
  | @receives _ idlePolls messages u _ hfetch hne =>
    rw [receive_of_ne_nil hne, (fetchAll_fetches hfetch).eq]
    exact hc.of_eq rfl rfl rfl
  -- the record that is handed out touches its partition
  | @emits _ f rest _ _ _ hbatch =>
    have hf : f ∈ s.batch := by
      rw [hbatch]
      exact List.mem_cons_self
    have hdrop : ((s.deliveries ++ [Delivery.mk f false]).map Delivery.message).drop n
        = handedSince s.toBooks n ++ [f] := by
      rw [List.map_append, List.drop_append_of_le_length
        (by rw [List.length_map]; exact hs.beyond.length)]
      rfl
    refine hc.insert rfl (hs.beyond.batch f hf) ?_ rfl
    constructor
    · rintro ⟨g, hg | hg, htp⟩
      · have hg : g ∈ ((s.deliveries ++ [Delivery.mk f false]).map Delivery.message).drop n := hg
        rw [hdrop, List.mem_append, List.mem_singleton] at hg
        rcases hg with hg | rfl
        · exact .inl ⟨g, .inl hg, htp⟩
        · exact .inr htp
      · exact .inl ⟨g, .inr hg, htp⟩
    · intro ht
      have hhanded : ∀ g ∈ handedSince s.toBooks n ++ [f],
          g ∈ ((s.deliveries ++ [Delivery.mk f false]).map Delivery.message).drop n :=
        fun g hg => hdrop ▸ hg
      rcases ht with ⟨g, hg | hg, htp⟩ | htp
      · exact ⟨g, .inl (hhanded g (List.mem_append_left _ hg)), htp⟩
      · exact ⟨g, .inr hg, htp⟩
      · exact ⟨f, .inl (hhanded f (List.mem_append_right _ (List.mem_singleton_self f))), htp⟩
  | @passesOver i d _ hpc hd _ =>
    refine chained_acknowledgeDelivery (s := s.clearActiveDelivery) ?_ hd ?_
      (fun _ => hs.yielded i hpc)
    · exact hc
    · exact hs.beyond.le_of_delivery hd (hs.yielded i hpc)
  | @acknowledges i d _ hd hack =>
    have hi : d.message.tp = tp → n ≤ i := by
      intro htp
      by_contra hi
      refine hg.current d.message ?_ htp
      simp [recordsEarlier, Nat.not_le.1 hi, hd, hack]
    exact chained_acknowledgeDelivery hc hd
      (fun htp => hs.beyond.le_of_delivery hd (hi htp) htp) hi
  | @transacts i d hd =>
    have hi : d.message.tp = tp → n ≤ i := by
      intro htp
      by_contra hi
      refine hg.current d.message ?_ htp
      simp [recordsEarlier, Nat.not_le.1 hi, hd]
    have hmarked : Chained tp offset n m
        { s.toBooks with deliveries := s.deliveries.set i { d with acknowledged := true } } :=
      hc.of_eq rfl (messages_set hd) rfl
    refine hmarked.insert rfl (fun htp => hs.beyond.le_of_delivery hd (hi htp) htp) ?_ rfl
    exact ⟨.inl, fun h => h.elim id
      (fun htp => ⟨d.message, .inl (mem_handedSince_set hd (hi htp)), htp⟩)⟩
  | captures =>
    refine hpoison ?_ rfl
    exact hc.of_eq rfl rfl rfl
  | drops _ _ _ _ hu =>
    rcases hu with rfl | rfl
    · refine hpoison ?_ rfl
      exact hc.of_eq rfl rfl rfl
    · refine hpoison ?_ rfl
      exact hc.of_eq rfl rfl rfl
  | @committed i c _ hcommit =>
    have hu : Chained tp offset n m ((s.dropCommit i).recordCommit c.request).toBooks :=
      hc.of_eq rfl rfl rfl
    rcases commitReturns_cases ((s.dropCommit i).recordCommit c.request) c.caller with
      hb | ⟨ps, hps, hb⟩ | ⟨_, hb⟩ <;> rw [hb]
    · exact hu
    · have hnot : tp ∉ ps := by
        have hretains := hg.retains
        simp only [Forgets, hcommit, Option.map_some, hps] at hretains
        exact hretains
      exact hu.of_eq (Dict.lookup_without_of_notMem hnot) rfl rfl
    · exact hu.of_eq rfl rfl rfl
  | @commitFailed i c =>
    rcases commitRaises_cases (s.dropCommit i) c.caller with hb | ⟨ps, _, hb⟩ | ⟨_, hb⟩ <;>
      rw [hb] <;> exact hc.of_eq rfl rfl rfl
  | @revokes ps force hcall =>
    have hnot : tp ∉ ps := by
      have hretains := hg.retains
      simp only [Forgets, hcall] at hretains
      exact hretains
    exact hc.of_eq (Dict.lookup_without_of_notMem hnot) rfl rfl
  | @beginsSeek _ partitions =>
    rcases beginSeek_cases s.syncAssignment partitions with heq | ⟨_, heq⟩ <;> rw [heq] <;>
      exact hc.of_eq rfl rfl rfl
  | _ => exact hc.of_eq rfl rfl rfl

/-- **One step of progress.** -/
theorem progresses_step (hs : Progresses tp offset n m s) (hg : Continues tp n s e)
    (h : s.step cfg retry e = some t) : Progresses tp offset n m t where
  beyond := beyond_step hs.beyond hg.reads h
  chained := chained_step hs hg h
  coherent := coherent_step hs.coherent h
  yielded i hi := by
    rcases yielded_step h hi with hi | ⟨rfl, _⟩
    · exact hs.yielded i hi
    · exact hs.beyond.length

/-- What a source would be resumed from, were its checkpoint saved now. -/
def resumable (s : Source) : OffsetMap :=
  resumedOffsets (s.cursor.currentCheckpoint.1.map Checkpoint.saved)

/-- **The checkpoints of a resumed stream go on from the one it resumed from.**
Of a partition that was assigned when the stream was positioned, with nothing
recorded yet, every checkpoint from then on has no offset or one past the saved
one, and it has one just if a record of the partition has been handed out or
dropped. -/
theorem resumed_checkpoints_chain (cfg : SourceConfig)
    (retry : KafkaSink.RetryAsync DLQRecord) (checkpoint : Option SavedCheckpoint)
    {before after : List Event} (hs : run (step cfg retry) (Source.new cfg) before = some s)
    (h : s.step cfg retry e = some t) (hpositions : Positions s e t)
    (hassigned : tp ∈ t.operator.consumer.assignment)
    (hexact : t.cursor.startOffsets.entries = [])
    (hresumed : t.cursor.resumeOffsets = resumedOffsets checkpoint)
    {saved : ℤ} (hsaved : (resumedOffsets checkpoint).lookup tp = some saved)
    (hnothing : t.cursor.processedOffsets.lookup tp = none)
    (hafter : AllSteps (step cfg retry)
      (fun s e _ => Continues tp t.deliveries.length s e) t after) :
    AllStates (step cfg retry)
      (fun u => (∀ offset, u.resumable.lookup tp = some offset → saved + 1 ≤ offset)
        ∧ (Touched tp t.deliveries.length t.history.dropped.length u.toBooks
          ↔ u.resumable.lookup tp ≠ none)) t after := by
  have hcoherent : AllStates (step cfg retry) (fun s => s.cursor.Coherent) (Source.new cfg)
      before := by
    refine allStates_of_invariant ?_ ?_ before
    · exact fun _ _ _ hs hstep => coherent_step hs hstep
    · exact .of_empty rfl rfl
  have hstart : Progresses tp (saved + 1) t.deliveries.length t.history.dropped.length t := by
    refine ⟨beyond_of_positions hs h hpositions ?_, ⟨?_, ?_, le_rfl⟩,
      coherent_step (hcoherent.last hs) h, ?_⟩
    · exact position_of_positions h hpositions hassigned hexact (hresumed ▸ hsaved)
    · rw [hnothing]
      exact nofun
    · refine iff_of_false ?_ (fun h => h hnothing)
      rintro ⟨f, hf, _⟩
      unfold handedSince at hf
      rw [List.drop_of_length_le (by rw [List.length_map]), List.drop_length] at hf
      rcases hf with hf | hf <;> cases hf
    · intro i hi
      rw [hpositions.2] at hi
      cases hi
  have hall : AllStates (step cfg retry)
      (fun u => Progresses tp (saved + 1) t.deliveries.length t.history.dropped.length u)
      t after := by
    refine allStates_of_step
      (I := Progresses tp (saved + 1) t.deliveries.length t.history.dropped.length) ?_ hstart hafter
    exact fun _ _ _ hu hg hstep => progresses_step hu hg hstep
  refine hall.mono (fun u hu => ?_)
  have hlookup : u.resumable.lookup tp = u.cursor.processedOffsets.lookup tp :=
    CursorState.lookup_resumedOffsets_currentCheckpoint hu.coherent tp
  rw [hlookup]
  exact ⟨hu.chained.recorded, hu.chained.touched⟩

/-- A checkpoint of two partitions. -/
def twoPartitions : SavedCheckpoint where
  entry := none
  offsets := some [some ⟨"events", 0, 5⟩, some ⟨"events", 1, 7⟩]

/-- A source is resumed from it with both partitions assigned. -/
def twoAssigned : Source :=
  (run (step {} (KafkaSink.RetryAsync.upTo DLQRecord 1)) (Source.new {})
    [.prepareResume (some twoPartitions), .open (fun _ => 0),
      .assigned {⟨"events", 0⟩, ⟨"events", 1⟩} (fun _ => 0)]).get rfl

def twoResumed : Source :=
  (step {} (KafkaSink.RetryAsync.upTo DLQRecord 1) twoAssigned .stream).get rfl

/-- A record of the first is handed out and acknowledged, none of the second. -/
def firstOnly : List Event :=
  [.polled [{ tp := ⟨"events", 0⟩, offset := 6 }], .deserialized, .acknowledge 0, .proceed,
    .checkpoint]

/-- The checkpoints have the first partition, no offset of it behind what was saved. -/
theorem resumed_checkpoints_chain_firstOnly :
    AllStates (step {} (KafkaSink.RetryAsync.upTo DLQRecord 1))
      (fun u => (∀ offset, u.resumable.lookup ⟨"events", 0⟩ = some offset → 5 + 1 ≤ offset)
        ∧ (Touched ⟨"events", 0⟩ twoResumed.deliveries.length twoResumed.history.dropped.length
            u.toBooks ↔ u.resumable.lookup ⟨"events", 0⟩ ≠ none)) twoResumed firstOnly := by
  refine resumed_checkpoints_chain {} (KafkaSink.RetryAsync.upTo DLQRecord 1)
    (some twoPartitions) (s := twoAssigned) (e := .stream) (Option.some_get _).symm
    (Option.some_get _).symm ⟨.inl rfl, rfl⟩ ?_ rfl rfl rfl rfl ?_
  · decide
  · decide

/-- Every checkpoint has all the partitions of the one that was resumed from, not
behind it. -/
def Remembers (checkpoint : SavedCheckpoint) (s : Source) : Prop :=
  s.cursor.currentCheckpoint.1 ≠ none → ∀ tp ∈ (resumedOffsets (some checkpoint)).keys,
    ∀ saved ∈ (resumedOffsets (some checkpoint)).lookup tp,
      (s.resumable.lookup tp).any (fun offset => saved ≤ offset) = true

instance (checkpoint : SavedCheckpoint) : DecidablePred (Remembers checkpoint) :=
  fun _ => inferInstanceAs (Decidable (_ → ∀ _ ∈ _, _))

/-- **The second partition is forgotten**: the checkpoint names the first alone. -/
theorem not_remembers :
    ¬ AllStates (step {} (KafkaSink.RetryAsync.upTo DLQRecord 1)) (Remembers twoPartitions)
      twoResumed firstOnly := by
  decide

end Source

import AgoraPlugins.Kafka.SourceSteps

/-!
# The count of pending commits

With offsets committed by hand, `commit_if_needed` looks at one number: how many
records have been handled since the last commit. If there are none it commits
nothing, even when it is forced to. So the number must not be zero while an
offset is still to be committed (`Bookkept`).

It is set to zero when a commit returns. But the broker was awaited in between,
and what has been handled meanwhile is not in that commit. It is also set to
zero when a transaction has committed the offset of one record, whatever else is
pending. Apart from these two the count is right: the law holds in every run in
which a commit returns only with nothing handled since it was issued, and a
transaction is committed only with nothing else to commit.
-/

open Machine

namespace Source

variable {cfg : SourceConfig} {retry : KafkaSink.RetryAsync DLQRecord} {s t u : Source}
  {e : Event}

/-- **With nothing pending, every committable offset of an assigned partition is
committed.** -/
def Bookkept (s : Source) : Prop :=
  s.cursor.pendingCommitCount = 0 → ∀ tp ∈ s.operator.consumer.assignment,
    ∀ offset ∈ s.cursor.committableOffsets.lookup tp, (tp, offset + 1) ∈ s.history.committed

instance : DecidablePred Bookkept := fun _ => inferInstanceAs (Decidable (_ → ∀ _ ∈ _, _))

/-- **What must be so before a step** for the count to stay right. -/
def KeepsCount (s : Source) : Event → Prop
  | .committed i => ∀ c ∈ s.commits[i]?,
    c.handled = s.history.handled ∨ s.cursor.pendingCommitCount = 0
  | .transactionCommitted i => ∀ d ∈ s.deliveries[i]?,
    ∀ tp ∈ s.cursor.committableOffsets.keys, tp ≠ d.message.tp →
      ∀ offset ∈ s.cursor.committableOffsets.lookup tp, (tp, offset + 1) ∈ s.history.committed
  | _ => True

instance (s : Source) (e : Event) : Decidable (KeepsCount s e) := by
  unfold KeepsCount
  split <;> infer_instance

/-- **The count, and the commits in flight.** With nothing pending all is
committed; and a commit that was issued after the last record was handled has in
it all that is not. -/
structure Counted (b : Books) : Prop where
  committed : b.cursor.pendingCommitCount = 0 → ∀ tp offset,
    b.cursor.committableOffsets.lookup tp = some offset → (tp, offset + 1) ∈ b.history.committed
  handled : ∀ c ∈ b.commits, c.handled ≤ b.history.handled
  named : ∀ c ∈ b.commits, c.handled = b.history.handled → ∀ tp offset,
    b.cursor.committableOffsets.lookup tp = some offset →
      (tp, offset + 1) ∈ c.request.named ∨ (tp, offset + 1) ∈ b.history.committed

/-- **There is less to commit**: offsets have been forgotten, commits answered. -/
structure Eases (b b' : Books) : Prop where
  pending : b'.cursor.pendingCommitCount = 0 →
    b.cursor.pendingCommitCount = 0 ∨ b'.cursor.committableOffsets = ∅
  committable : ∀ tp offset, b'.cursor.committableOffsets.lookup tp = some offset →
    b.cursor.committableOffsets.lookup tp = some offset
  committed : b'.history.committed = b.history.committed
  commits : b'.commits ⊆ b.commits
  handled : b'.history.handled = b.history.handled

theorem Eases.counted {b b' : Books} (h : Eases b b') (hb : Counted b) : Counted b' where
  committed hp tp offset hl := by
    rw [h.committed]
    rcases h.pending hp with hp | hempty
    · exact hb.committed hp tp offset (h.committable tp offset hl)
    · rw [hempty, AList.lookup_empty] at hl
      cases hl
  handled c hc := by
    rw [h.handled]
    exact hb.handled c (h.commits hc)
  named c hc heq tp offset hl := by
    rw [h.committed]
    exact hb.named c (h.commits hc) (heq.trans h.handled) tp offset (h.committable tp offset hl)

/-- The offsets and the commits are as they were. -/
theorem Eases.of_eq {b b' : Books}
    (hcursor : b'.cursor.committableOffsets = b.cursor.committableOffsets)
    (hpending : b'.cursor.pendingCommitCount = b.cursor.pendingCommitCount)
    (hcommitted : b'.history.committed = b.history.committed) (hcommits : b'.commits = b.commits)
    (hhandled : b'.history.handled = b.history.handled) : Eases b b' where
  pending hp := .inl (hpending ▸ hp)
  committable tp offset h := by rwa [hcursor] at h
  committed := hcommitted
  commits := by rw [hcommits]; exact List.Subset.refl _
  handled := hhandled

/-- Nothing is committable any more. -/
theorem Eases.of_empty {b b' : Books} (hcursor : b'.cursor.committableOffsets = ∅)
    (hcommitted : b'.history.committed = b.history.committed) (hcommits : b'.commits = b.commits)
    (hhandled : b'.history.handled = b.history.handled) : Eases b b' where
  pending _ := .inr hcursor
  committable tp offset h := by
    rw [hcursor, AList.lookup_empty] at h
    cases h
  committed := hcommitted
  commits := by rw [hcommits]; exact List.Subset.refl _
  handled := hhandled

/-! ## The steps that commit -/

/-- **A record is handled**: it is pending. -/
theorem counted_markDelivered (hmanual : cfg.enableAutoCommit = false) (hs : Counted s.toBooks)
    (f : Fetched) : Counted (s.markDelivered cfg f).toBooks where
  committed hp := by
    have hcount : (s.markDelivered cfg f).cursor.pendingCommitCount
        = s.cursor.pendingCommitCount + 1 := by
      unfold markDelivered recordHandled CursorState.markDeliveredMessage
      rw [hmanual]
      rfl
    omega
  handled c hc := Nat.le_succ_of_le (hs.handled c hc)
  named c hc heq := by
    have hle := hs.handled c hc
    have heq : c.handled = s.history.handled + 1 := heq
    omega

/-- **A commit is issued**: it names all there is to commit. -/
theorem counted_issueCommit (hs : Counted s.toBooks) (caller : Caller) :
    Counted (s.issueCommit caller).toBooks where
  committed := hs.committed
  handled c hc := by
    rcases List.mem_append.1 hc with hc | hc
    · exact hs.handled c hc
    · rw [List.mem_singleton.1 hc]
      exact Nat.le_refl _
  named c hc heq tp offset hl := by
    rcases List.mem_append.1 hc with hc | hc
    · exact hs.named c hc heq tp offset hl
    · rw [List.mem_singleton.1 hc]
      exact .inl (mem_named_buildCommitOffsets_iff.2 ⟨offset, hl, rfl⟩)

/-- **A commit has been accepted**, with nothing handled since it was issued. -/
theorem counted_recordCommit {i : ℕ} {c : CommitCall} (hs : Counted s.toBooks)
    (hc : s.commits[i]? = some c)
    (hkeeps : c.handled = s.history.handled ∨ s.cursor.pendingCommitCount = 0) :
    Counted ((s.dropCommit i).recordCommit c.request).toBooks where
  committed _ tp offset hl := by
    show (tp, offset + 1) ∈ s.history.committed ++ c.request.named
    rcases hkeeps with heq | hp
    · rcases hs.named c (List.mem_of_getElem? hc) heq tp offset hl with h | h
      · exact List.mem_append_right _ h
      · exact List.mem_append_left _ h
    · exact List.mem_append_left _ (hs.committed hp tp offset hl)
  handled c' hc' := hs.handled c' (List.mem_of_mem_eraseIdx hc')
  named c' hc' heq tp offset hl := by
    rcases hs.named c' (List.mem_of_mem_eraseIdx hc') heq tp offset hl with h | h
    · exact .inl h
    · exact .inr (List.mem_append_left _ h)

/-- **A transaction has committed a record**, with nothing else to commit. -/
theorem counted_transactionCommitted {i : ℕ} {d : Delivery} (hs : Counted s.toBooks)
    (hkeeps : ∀ tp ∈ s.cursor.committableOffsets.keys, tp ≠ d.message.tp →
      ∀ offset ∈ s.cursor.committableOffsets.lookup tp,
        (tp, offset + 1) ∈ s.history.committed) :
    Counted (s.transactionCommitted i d).toBooks := by
  have hall : ∀ tp offset,
      (s.transactionCommitted i d).cursor.committableOffsets.lookup tp = some offset →
        (tp, offset + 1) ∈ (s.transactionCommitted i d).history.committed := by
    intro tp offset hl
    have hl : (s.cursor.committableOffsets.insert d.message.tp d.message.offset).lookup tp
        = some offset := hl
    show (tp, offset + 1) ∈ s.history.committed ++ [(d.message.tp, d.message.offset + 1)]
    by_cases htp : tp = d.message.tp
    · rw [htp, AList.lookup_insert, Option.some.injEq] at hl
      rw [htp, ← hl]
      exact List.mem_append_right _ (List.mem_singleton.2 rfl)
    · rw [AList.lookup_insert_ne htp] at hl
      have hkey : tp ∈ s.cursor.committableOffsets.keys := by
        refine AList.mem_keys.1 (AList.lookup_isSome.1 ?_)
        rw [hl]
        rfl
      exact List.mem_append_left _ (hkeeps tp hkey htp offset hl)
  exact ⟨fun _ => hall, hs.handled, fun _ _ _ tp offset hl => .inr (hall tp offset hl)⟩

/-! ## The other steps -/

theorem eases_dropRevoked (s : Source) (ps : Finset TopicPartition) :
    Eases s.toBooks ((s.dropRevoked ps).partitionsLost ps).toBooks where
  pending := .inl
  committable tp offset hl := by
    have hl : (Dict.without ps s.cursor.committableOffsets).lookup tp = some offset := hl
    rw [Dict.lookup_without] at hl
    split at hl
    · cases hl
    · exact hl
  committed := rfl
  commits := List.Subset.refl _
  handled := rfl

theorem eases_of_bootstraps (h : Bootstraps s t) : Eases s.toBooks t.toBooks := by
  rw [h.books]
  exact .of_eq rfl rfl rfl rfl rfl

theorem eases_finishSeekToOffsets (s : Source) (offsets : OffsetMap) :
    Eases s.toBooks (s.finishSeekToOffsets offsets).toBooks := by
  rcases finishSeekToOffsets_cases s offsets with heq | ⟨_, _, heq⟩ <;> rw [heq]
  · exact .of_eq rfl rfl rfl rfl rfl
  · exact .of_empty rfl rfl rfl rfl

theorem eases_beginSeek (s : Source) (partitions : Option (Finset TopicPartition)) :
    Eases s.toBooks (s.beginSeek partitions).toBooks := by
  rcases beginSeek_cases s partitions with heq | ⟨_, heq⟩ <;> rw [heq] <;>
    exact .of_eq rfl rfl rfl rfl rfl

theorem eases_of_fetches {fs : List Fetched} (h : Fetches s fs t) :
    Eases s.toBooks t.toBooks := by
  rw [h.eq]
  exact .of_eq rfl rfl rfl rfl rfl

theorem eases_currentCheckpoint (s : Source) :
    Eases s.toBooks { s.toBooks with cursor := s.cursor.currentCheckpoint.2 } := by
  obtain ⟨_, _, heq⟩ := s.cursor.exists_currentCheckpoint_eq
  rw [heq]
  exact .of_eq rfl rfl rfl rfl rfl

/-- **Poison is dropped**, or fails the stream. -/
theorem counted_poisonCaptured (hmanual : cfg.enableAutoCommit = false) (hs : Counted s.toBooks) :
    Counted (s.poisonCaptured cfg).toBooks := by
  unfold poisonCaptured
  dsimp only
  split
  · rw [toBooks_callCommit]
    refine dropMessages_keeps (P := fun s => Counted s.toBooks)
      (fun _ f hs => counted_markDelivered hmanual hs f) ?_ _
    exact Eases.counted (b := s.toBooks) (.of_eq rfl rfl rfl rfl rfl) hs
  · have hcheckpoint := eases_currentCheckpoint (s.takePoison (s.poisonMessages cfg))
    refine hcheckpoint.counted ?_
    exact Eases.counted (b := s.toBooks) (.of_eq rfl rfl rfl rfl rfl) hs

theorem counted_syncAssignment (hs : Counted s.toBooks) : Counted s.syncAssignment.toBooks :=
  Eases.counted (b := s.toBooks) (.of_eq rfl rfl rfl rfl rfl) hs

/-- **One step keeps the count.** -/
theorem counted_step (hmanual : cfg.enableAutoCommit = false) (hs : Counted s.toBooks)
    (hk : KeepsCount s e) (h : s.step cfg retry e = some t) : Counted t.toBooks := by
  -- what eases the books leaves the count right
  have hease : ∀ {b : Books}, Eases s.toBooks b → Counted b := fun hb => hb.counted hs
  cases step_reacts h with
  | idles _ h =>
    rw [h.books]
    exact hs
  | errs _ _ _ _ _ _ hbooks h =>
    rw [h.books, hbooks]
    exact hease (.of_eq rfl rfl rfl rfl rfl)
  | checkpoints => exact hease (eases_currentCheckpoint s)
  | starts =>
    have hreset : Counted s.resetForStream.toBooks := hease (.of_empty rfl rfl rfl rfl)
    exact (eases_of_bootstraps (bootstraps_startStream s)).counted hreset
  | refreshes _ hprobe =>
    obtain ⟨fs, hfs, _⟩ := probe_fetches hprobe
    exact (eases_of_bootstraps (bootstraps_applyInitialPositioning _).of_sync).counted
      (hease (eases_of_fetches hfs))
  | positions _ hprobe =>
    obtain ⟨fs, hfs, _⟩ := probe_fetches hprobe
    exact (eases_of_bootstraps (bootstraps_seekAndStart _).of_sync).counted
      (hease (eases_of_fetches hfs))
  | receives _ hfetch hne =>
    rw [receive_of_ne_nil hne]
    refine Eases.counted ?_ (hease (eases_of_fetches (fetchAll_fetches hfetch)))
    exact .of_eq rfl rfl rfl rfl rfl
  | passesOver _ _ hd =>
    rw [toBooks_acknowledgeDelivery]
    refine counted_markDelivered hmanual ?_ _
    exact hease (.of_eq rfl rfl rfl rfl rfl)
  | acknowledges =>
    rw [toBooks_acknowledgeDelivery]
    refine counted_markDelivered hmanual ?_ _
    exact hease (.of_eq rfl rfl rfl rfl rfl)
  -- here, and where a commit returns, the condition keeps the count
  | transacts hd => exact counted_transactionCommitted hs (hk _ hd)
  | captures =>
    refine counted_poisonCaptured hmanual ?_
    exact hease (.of_eq rfl rfl rfl rfl rfl)
  | drops _ _ _ _ hu =>
    refine counted_poisonCaptured hmanual ?_
    rcases hu with rfl | rfl <;> exact hease (.of_eq rfl rfl rfl rfl rfl)
  | commits =>
    refine counted_issueCommit ?_ _
    exact hs
  | commitsNow => exact counted_issueCommit hs _
  | @committed i c _ hc =>
    have hu := counted_recordCommit hs hc (hk c hc)
    rcases commitReturns_cases ((s.dropCommit i).recordCommit c.request) c.caller with
      hb | ⟨ps, _, hb⟩ | ⟨_, hb⟩ <;> rw [hb]
    · exact hu
    · exact (eases_dropRevoked _ ps).counted hu
    · refine Eases.counted ?_ hu
      exact .of_eq rfl rfl rfl rfl rfl
  | @commitFailed i c =>
    have hdrop : Eases s.toBooks (s.dropCommit i).toBooks :=
      ⟨.inl, fun _ _ => id, rfl, fun _ => List.mem_of_mem_eraseIdx, rfl⟩
    have hu := hease hdrop
    rcases commitRaises_cases (s.dropCommit i) c.caller with hb | ⟨ps, _, hb⟩ | ⟨_, hb⟩ <;> rw [hb]
    · exact hu
    · refine Eases.counted ?_ hu
      exact .of_eq rfl rfl rfl rfl rfl
    · refine Eases.counted ?_ hu
      exact .of_eq rfl rfl rfl rfl rfl
  | revokes => exact hease (eases_dropRevoked _ _)
  | beginsSeek => exact (eases_beginSeek _ _).counted (counted_syncAssignment hs)
  | seeks => exact (eases_finishSeekToOffsets _ _).counted (counted_syncAssignment hs)
  | @probesForSeek i _ offsets u _ hprobe =>
    obtain ⟨fs, hfs, _⟩ := probe_fetches hprobe
    have hdrop : Counted (s.dropCall i).toBooks := hease (.of_eq rfl rfl rfl rfl rfl)
    have hu := (eases_of_fetches hfs).counted hdrop
    exact (eases_finishSeekToOffsets _ offsets).counted (counted_syncAssignment hu)
  | @probesToBeginSeek i _ partitions u _ hprobe =>
    obtain ⟨fs, hfs, _⟩ := probe_fetches hprobe
    have hdrop : Counted (s.dropCall i).toBooks := hease (.of_eq rfl rfl rfl rfl rfl)
    have hu := (eases_of_fetches hfs).counted hdrop
    exact (eases_beginSeek _ partitions).counted (counted_syncAssignment hu)
  | seeked => exact hease (.of_empty rfl rfl rfl rfl)
  | _ => exact hease (.of_eq rfl rfl rfl rfl rfl)

theorem counted_new (cfg : SourceConfig) : Counted (Source.new cfg).toBooks where
  committed _ _ _ hl := nomatch hl
  handled _ hc := nomatch hc
  named _ hc := nomatch hc

/-- **With nothing pending all is committed, in every run** in which a commit
returns only with nothing handled since it was issued, and a transaction is
committed only with nothing else to commit. -/
theorem bookkept_of_keepsCount (cfg : SourceConfig) (retry : KafkaSink.RetryAsync DLQRecord)
    (hmanual : cfg.enableAutoCommit = false) (es : List Event)
    (h : AllSteps (step cfg retry) (fun s e _ => KeepsCount s e) (Source.new cfg) es) :
    AllStates (step cfg retry) Bookkept (Source.new cfg) es := by
  have hcounted : AllStates (step cfg retry) (fun s => Counted s.toBooks) (Source.new cfg) es := by
    refine allStates_of_step (I := fun s => Counted s.toBooks) ?_ (counted_new cfg) h
    exact fun _ _ _ hs hk hstep => counted_step hmanual hs hk hstep
  exact hcounted.mono (fun s hs hp tp _ offset hl => hs.committed hp tp offset hl)

/-- Two records of a partition, the first of them handed out. -/
def twoRecords : List Event :=
  [.open (fun _ => 0), .assigned {⟨"events", 0⟩} (fun _ => 0), .stream,
    .polled [{ tp := ⟨"events", 0⟩, offset := 0 }, { tp := ⟨"events", 0⟩, offset := 1 }],
    .deserialized]

/-- The first is acknowledged and a commit issued. The second is acknowledged
before the commit returns. -/
def acknowledgedDuringCommit : List Event :=
  twoRecords ++ [.acknowledge 0, .proceed, .commitNow, .next, .proceed, .deserialized,
    .acknowledge 1, .proceed, .committed 0]

end Source

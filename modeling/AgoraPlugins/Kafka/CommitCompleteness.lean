import AgoraPlugins.Kafka.CommitBookkeeping
import AgoraPlugins.Kafka.CommitSafety
import AgoraPlugins.Kafka.DeliveryOrder
import AgoraPlugins.Kafka.Isolation
import AgoraPlugins.Kafka.StreamTurn

/-!
# What a forced commit leaves behind

A commit names one offset for each partition: the one that was recorded last. What has been handled
is committed by it only as far as that offset goes. So when a forced commit returns, or the source
is closed, all that has been handled is committed (`AllCommitted`) if the count of pending commits
was right and no offset that was recorded has been lost.

Offsets are lost in four ways. A record is handled after a later one of its partition, whose offset
it replaces. A stream starts, or an operator seeks, and the cursor forgets what it tracked. The
commit of `close` fails, which `close` only logs. And a record is handled once the consumer is gone:
no commit is issued then.
-/

open Machine

/-- Whether an event is the hook of a committed transaction, which needs no consumer. -/
def Event.commitsTransaction : Event → Bool
  | .transactionCommitted _ => true
  | _ => false

namespace Source

variable {cfg : SourceConfig} {retry : KafkaSink.RetryAsync DLQRecord} {s t u : Source}
  {e : Event} {f g : Fetched}

/-! ## What has been handled -/

/-- **The messages that have been handled**: acknowledged, or dropped as poison. -/
def handledMessages (b : Books) : List Fetched :=
  (b.deliveries.filter Delivery.acknowledged).map Delivery.message ++ b.history.dropped

/-- **The offset of a message has been committed**, or a later one of its partition. -/
def Committed (b : Books) (f : Fetched) : Prop :=
  ∃ n ∈ b.history.committed, n.1 = f.tp ∧ f.offset < n.2

/-- **No handled offset is uncommitted.** -/
def AllCommitted (b : Books) : Prop :=
  ∀ f ∈ handledMessages b, Committed b f

instance (b : Books) : DecidablePred (Committed b) := fun _ =>
  inferInstanceAs (Decidable (∃ _ ∈ _, _))

instance : DecidablePred AllCommitted := fun _ => inferInstanceAs (Decidable (∀ _ ∈ _, _))

/-- **Whether a commit has been made by an event**: a forced one returns, with nothing to commit or
from the broker, or `close` goes on without it. -/
def settles (cfg : SourceConfig) (s : Source) : Event → Bool
  | .proceed => s.call.any (fun c => c.2 && !s.commitDue cfg c.2)
  | .committed _ => true
  | .commitFailed i => s.commits[i]?.any (fun c => c.caller = .close)
  | _ => false

/-- Whether the offsets that are committable may be lost by an event. -/
def discards (s : Source) : Event → Bool
  | .stream | .seekToOffsets _ | .seeked _ _ => true
  | .operatorProbed i _ =>
    match s.calls[i]? with
    | some (.seekToOffsets _) => true
    | _ => false
  | .commitFailed i => s.commits[i]?.any (fun c => c.caller = .close)
  | _ => false

/-- **A message comes after what is committable** of its partition, or that has been committed. -/
def Follows (b : Books) (f : Fetched) : Prop :=
  ∀ offset ∈ b.cursor.committableOffsets.lookup f.tp,
    offset ≤ f.offset ∨ (f.tp, offset + 1) ∈ b.history.committed

instance (b : Books) : DecidablePred (Follows b) := fun _ =>
  inferInstanceAs (Decidable (∀ _ ∈ _, _))

/-- **What must be so before a step** for no handled offset to be lost. -/
structure KeepsCommits (cfg : SourceConfig) (retry : KafkaSink.RetryAsync DLQRecord) (s : Source)
    (e : Event) : Prop where
  count : KeepsCount s e
  /-- no record is handled after a later one that is not committed -/
  recorded : s.handles cfg retry e = true → ∀ f ∈ s.concerned cfg e, Follows s.toBooks f
  /-- records are handled while there is a consumer -/
  opened : s.handles cfg retry e = true → e.commitsTransaction = false →
    s.operator.opened = true
  /-- nothing is lost that is not committed -/
  discarded : s.discards e = true → AllCommitted s.toBooks

instance (s : Source) (e : Event) : Decidable (KeepsCommits cfg retry s e) :=
  decidable_of_iff (_ ∧ _ ∧ _ ∧ _) ⟨fun h => ⟨h.1, h.2.1, h.2.2.1, h.2.2.2⟩,
    fun h => ⟨h.count, h.recorded, h.opened, h.discarded⟩⟩

/-! ## What is committed or still to be committed -/

/-- **A message is accounted for**: it is committed, or the next commit names its partition with an
offset as late. -/
def Accounted (b : Books) (f : Fetched) : Prop :=
  Committed b f
    ∨ ∃ offset, b.cursor.committableOffsets.lookup f.tp = some offset ∧ f.offset ≤ offset

/-- **All that has been handled is accounted for**, and committed if there is no consumer. -/
structure Complete (b : Books) : Prop where
  accounted : ∀ f ∈ handledMessages b, Accounted b f
  closed : b.operator.opened = false → AllCommitted b

/-- The offset of a message is named by a commit that has been accepted. -/
theorem committed_of_named {b : Books} {offset : ℤ} (hle : f.offset ≤ offset)
    (h : (f.tp, offset + 1) ∈ b.history.committed) : Committed b f :=
  ⟨_, h, rfl, Int.lt_add_one_of_le hle⟩

theorem Committed.mono {b b' : Books} (h : Committed b f)
    (hcommitted : b.history.committed ⊆ b'.history.committed) : Committed b' f := by
  obtain ⟨n, hn, htp, hlt⟩ := h
  exact ⟨n, hcommitted hn, htp, hlt⟩

theorem AllCommitted.mono {b b' : Books} (h : AllCommitted b)
    (hhandled : handledMessages b' ⊆ handledMessages b)
    (hcommitted : b.history.committed ⊆ b'.history.committed) : AllCommitted b' :=
  fun f hf => (h f (hhandled hf)).mono hcommitted

theorem AllCommitted.complete {b : Books} (h : AllCommitted b) : Complete b :=
  ⟨fun f hf => .inl (h f hf), fun _ => h⟩

/-- **When all that is committable is committed**, so is all that has been handled. -/
theorem Complete.allCommitted {b : Books} (h : Complete b) (hall : ∀ tp offset,
    b.cursor.committableOffsets.lookup tp = some offset → (tp, offset + 1) ∈ b.history.committed) :
    AllCommitted b := by
  intro f hf
  rcases h.accounted f hf with hcommitted | ⟨offset, hl, hle⟩
  · exact hcommitted
  · exact committed_of_named hle (hall f.tp offset hl)

/-- **Nothing is handled and nothing is lost.** -/
structure Retains (b b' : Books) : Prop where
  handled : handledMessages b' ⊆ handledMessages b
  committed : b.history.committed ⊆ b'.history.committed
  committable : ∀ tp offset, b.cursor.committableOffsets.lookup tp = some offset →
    b'.cursor.committableOffsets.lookup tp = some offset
  opened : b'.operator.opened = false → b.operator.opened = false

theorem Accounted.mono {b b' : Books} (h : Accounted b f)
    (hcommitted : b.history.committed ⊆ b'.history.committed)
    (hcommittable : ∀ tp offset, b.cursor.committableOffsets.lookup tp = some offset →
      b'.cursor.committableOffsets.lookup tp = some offset) : Accounted b' f := by
  rcases h with h | ⟨offset, hl, hle⟩
  · exact .inl (h.mono hcommitted)
  · exact .inr ⟨offset, hcommittable f.tp offset hl, hle⟩

theorem Retains.complete {b b' : Books} (h : Retains b b') (hb : Complete b) : Complete b' where
  accounted f hf := (hb.accounted f (h.handled hf)).mono h.committed h.committable
  closed hopened := (hb.closed (h.opened hopened)).mono h.handled h.committed

/-- What has been handled, and what may be committed of it, is as it was. -/
theorem Retains.of_eq {b b' : Books} (hhandled : handledMessages b' = handledMessages b)
    (hcommitted : b'.history.committed = b.history.committed)
    (hcursor : b'.cursor.committableOffsets = b.cursor.committableOffsets)
    (hopened : b'.operator.opened = false → b.operator.opened = false) : Retains b b' where
  handled := by rw [hhandled]; exact List.Subset.refl _
  committed := by rw [hcommitted]; exact List.Subset.refl _
  committable tp offset hl := by rwa [hcursor]
  opened := hopened

/-! ## The steps that handle messages -/

/-- **A message is recorded** as committable, after what was: what is accounted for stays so. -/
theorem Accounted.insert {b b' : Books} (h : Accounted b g) (hf : Follows b f)
    (hcursor : b'.cursor.committableOffsets = b.cursor.committableOffsets.insert f.tp f.offset)
    (hcommitted : b.history.committed ⊆ b'.history.committed) : Accounted b' g := by
  rcases h with h | ⟨offset, hl, hle⟩
  · exact .inl (h.mono hcommitted)
  · by_cases htp : g.tp = f.tp
    · rw [htp] at hl
      rcases hf offset hl with hof | hnamed
      · refine .inr ⟨f.offset, ?_, Int.le_trans hle hof⟩
        rw [hcursor, htp, AList.lookup_insert]
      · exact .inl (committed_of_named hle (hcommitted (htp ▸ hnamed)))
    · refine .inr ⟨offset, ?_, hle⟩
      rw [hcursor, AList.lookup_insert_ne htp]
      exact hl

/-- And it is itself accounted for. -/
theorem accounted_of_insert {b b' : Books}
    (hcursor : b'.cursor.committableOffsets = b.cursor.committableOffsets.insert f.tp f.offset) :
    Accounted b' f := by
  refine .inr ⟨f.offset, ?_, Int.le_refl _⟩
  rw [hcursor, AList.lookup_insert]

/-- A delivery is acknowledged: its message is handled now. -/
theorem subset_handledMessages_set (i : ℕ) (d : Delivery) :
    handledMessages { s.toBooks with
        deliveries := s.deliveries.set i { d with acknowledged := true } }
      ⊆ d.message :: handledMessages s.toBooks := by
  intro f hf
  rcases List.mem_append.1 hf with hf | hf
  · obtain ⟨d', hd', rfl⟩ := List.mem_map.1 hf
    obtain ⟨hmem, hack⟩ := List.mem_filter.1 hd'
    rcases List.mem_or_eq_of_mem_set hmem with hmem | rfl
    · refine List.mem_cons_of_mem _ (List.mem_append_left _ ?_)
      exact List.mem_map_of_mem (List.mem_filter.2 ⟨hmem, hack⟩)
    · exact List.mem_cons_self
  · exact List.mem_cons_of_mem _ (List.mem_append_right _ hf)

/-- **A record is acknowledged or passed over.** -/
theorem complete_acknowledgeDelivery {i : ℕ} {d : Delivery} {caller : Caller}
    (hs : Complete s.toBooks) (hf : Follows s.toBooks d.message)
    (hopened : s.operator.opened = true) :
    Complete (s.acknowledgeDelivery cfg i d caller).toBooks := by
  rw [toBooks_acknowledgeDelivery]
  have hcursor := @committableOffsets_markDelivered cfg
    { s with deliveries := s.deliveries.set i { d with acknowledged := true } } d.message
  refine ⟨fun g hg => ?_, fun hclosed => ?_⟩
  · rcases List.mem_cons.1 (subset_handledMessages_set i d hg) with rfl | hg
    · exact accounted_of_insert (b := s.toBooks) hcursor
    · exact (hs.accounted g hg).insert hf hcursor (List.Subset.refl _)
  · have hclosed : s.operator.opened = false := hclosed
    rw [hopened] at hclosed
    cases hclosed

/-- **A record's transaction is committed**, and its offset with it. -/
theorem complete_transactionCommitted {i : ℕ} {d : Delivery} (hs : Complete s.toBooks)
    (hf : Follows s.toBooks d.message) :
    Complete (s.transactionCommitted i d).toBooks := by
  have hcommitted : s.history.committed ⊆ (s.transactionCommitted i d).history.committed :=
    List.subset_append_left _ _
  have hself : Committed (s.transactionCommitted i d).toBooks d.message :=
    committed_of_named (Int.le_refl _) (List.mem_append_right _ (List.mem_singleton.2 rfl))
  refine ⟨fun g hg => ?_, fun hclosed g hg => ?_⟩
  · rcases List.mem_cons.1 (subset_handledMessages_set i d hg) with rfl | hg
    · exact .inl hself
    · exact (hs.accounted g hg).insert hf rfl hcommitted
  · rcases List.mem_cons.1 (subset_handledMessages_set i d hg) with rfl | hg
    · exact hself
    · exact (hs.closed hclosed g hg).mono hcommitted

/-- **Messages are dropped one after the other**, each of them after those before it. -/
theorem accounted_dropMessages {messages : List Fetched}
    (horder : messages.Pairwise (fun f g => f.tp = g.tp → f.offset < g.offset))
    (hfollows : ∀ f ∈ messages, Follows s.toBooks f) :
    (∀ g, Accounted s.toBooks g → Accounted (s.dropMessages cfg messages).toBooks g)
      ∧ ∀ f ∈ messages, Accounted (s.dropMessages cfg messages).toBooks f := by
  induction messages generalizing s with
  | nil => exact ⟨fun _ => id, nofun⟩
  | cons f messages ih =>
    obtain ⟨hlater, horder⟩ := List.pairwise_cons.1 horder
    have hcursor := @committableOffsets_markDelivered cfg s f
    have hnext : ∀ g ∈ messages, Follows (s.markDelivered cfg f).toBooks g := by
      intro g hg offset hl
      by_cases htp : g.tp = f.tp
      · rw [hcursor, htp, AList.lookup_insert, Option.mem_some_iff] at hl
        exact .inl (Int.le_of_lt (hl ▸ hlater g hg htp.symm))
      · rw [hcursor, AList.lookup_insert_ne htp] at hl
        exact hfollows g (List.mem_cons_of_mem f hg) offset hl
    obtain ⟨hkept, hmessages⟩ := ih horder hnext
    refine ⟨fun g hg => hkept g ?_, fun g hg => ?_⟩
    · exact hg.insert (hfollows f List.mem_cons_self) hcursor (List.Subset.refl _)
    · rcases List.mem_cons.1 hg with rfl | hg
      · exact hkept g (accounted_of_insert hcursor)
      · exact hmessages g hg

theorem handledMessages_dropMessages (messages : List Fetched) :
    handledMessages (s.dropMessages cfg messages).toBooks = handledMessages s.toBooks := by
  rw [dropMessages_eq]
  rfl

/-- **Poison is dropped**, or fails the stream. -/
theorem complete_poisonCaptured (hs : Complete s.toBooks)
    (horder : s.batch.Pairwise (fun f g => f.tp = g.tp → f.offset < g.offset))
    (hdrops : cfg.poison.policy.shouldContinue = true →
      s.operator.opened = true ∧ ∀ f ∈ s.poisonMessages cfg, Follows s.toBooks f) :
    Complete (s.poisonCaptured cfg).toBooks := by
  unfold poisonCaptured
  dsimp only
  split
  · rename_i hcontinue
    rw [toBooks_callCommit]
    obtain ⟨hsource, hfollows⟩ := hdrops hcontinue
    have hsublist : (s.poisonMessages cfg).Sublist s.batch := by
      unfold poisonMessages
      split
      · exact List.Sublist.refl _
      · exact List.take_sublist 1 s.batch
    obtain ⟨hkept, hdropped⟩ := @accounted_dropMessages cfg
      { s.takePoison (s.poisonMessages cfg) with
        recordDropCount := s.recordDropCount + (s.poisonMessages cfg).length
        history := { (s.takePoison (s.poisonMessages cfg)).history with
          dropped := s.history.dropped ++ s.poisonMessages cfg } }
      (s.poisonMessages cfg) (horder.sublist hsublist) hfollows
    refine ⟨fun g hg => ?_, fun hclosed => ?_⟩
    · rw [handledMessages_dropMessages] at hg
      rcases List.mem_append.1 hg with hg | hg
      · exact hkept g (hs.accounted g (List.mem_append_left _ hg))
      · rcases List.mem_append.1 hg with hg | hg
        · exact hkept g (hs.accounted g (List.mem_append_right _ hg))
        · exact hdropped g hg
    · rw [dropMessages_eq] at hclosed
      have hclosed : s.operator.opened = false := hclosed
      rw [hsource] at hclosed
      cases hclosed
  · obtain ⟨_, _, heq⟩ :=
      (s.takePoison (s.poisonMessages cfg)).cursor.exists_currentCheckpoint_eq
    rw [heq]
    refine Retains.complete ?_ hs
    exact .of_eq rfl rfl rfl id

/-! ## The steps that commit -/

/-- **A forced commit that issues none** finds all committed. -/
theorem allCommitted_of_commitDue (hmanual : cfg.enableAutoCommit = false)
    (hs : Complete s.toBooks) (hcounted : Counted s.toBooks)
    (hdue : s.commitDue cfg true = false) : AllCommitted s.toBooks := by
  unfold commitDue at hdue
  rw [hmanual] at hdue
  simp only [Bool.not_false, Bool.and_true, Bool.true_or, Bool.and_eq_false_iff,
    decide_eq_false_iff_not, Nat.not_lt, Nat.le_zero] at hdue
  rcases hdue with hclosed | hpending
  · exact hs.closed hclosed
  · exact hs.allCommitted (hcounted.committed hpending)

/-- **A commit that returns** has committed all. -/
theorem allCommitted_recordCommit {i : ℕ} {c : CommitCall} (hs : Complete s.toBooks)
    (hcounted : Counted s.toBooks) (hc : s.commits[i]? = some c)
    (hkeeps : c.handled = s.history.handled ∨ s.cursor.pendingCommitCount = 0) :
    AllCommitted ((s.dropCommit i).recordCommit c.request).toBooks := by
  have hcounted := counted_recordCommit hcounted hc hkeeps
  have hretains : Retains s.toBooks ((s.dropCommit i).recordCommit c.request).toBooks :=
    ⟨List.Subset.refl _, List.subset_append_left _ _, fun _ _ => id, id⟩
  exact (hretains.complete hs).allCommitted (hcounted.committed rfl)

theorem AllCommitted.commitReturns (h : AllCommitted s.toBooks) (caller : Caller) :
    AllCommitted (s.commitReturns caller).toBooks := by
  rcases commitReturns_cases s caller with hb | ⟨ps, _, hb⟩ | ⟨_, hb⟩ <;> rw [hb] <;> exact h

theorem AllCommitted.finishSeekToOffsets (h : AllCommitted s.toBooks) (offsets : OffsetMap) :
    AllCommitted (s.finishSeekToOffsets offsets).toBooks := by
  rcases finishSeekToOffsets_cases s offsets with heq | ⟨_, _, heq⟩ <;> rw [heq] <;> exact h

/-! ## The other steps -/

theorem retains_of_bootstraps (h : Bootstraps s t) : Retains s.toBooks t.toBooks := by
  rw [h.books]
  exact .of_eq rfl rfl rfl (fun hopened => h.steady.opened ▸ hopened)

theorem retains_of_fetches {fs : List Fetched} (h : Fetches s fs t) :
    Retains s.toBooks t.toBooks := by
  rw [h.eq]
  exact .of_eq rfl rfl rfl id

theorem retains_operate {α : Type} {m : OperatorM α} (hm : Effect.Respects Operator.Unmoved m) :
    Retains s.toBooks (s.operate m).toBooks := by
  have hsteady := (hm s.operator).finalState.toSteady
  exact .of_eq rfl rfl rfl (fun hopened => hsteady.opened ▸ hopened)

theorem retains_syncAssignment (s : Source) : Retains s.toBooks s.syncAssignment.toBooks :=
  .of_eq rfl rfl rfl id

theorem retains_beginSeek (s : Source) (partitions : Option (Finset TopicPartition)) :
    Retains s.toBooks (s.beginSeek partitions).toBooks := by
  rcases beginSeek_cases s partitions with heq | ⟨_, heq⟩ <;> rw [heq] <;>
    exact .of_eq rfl rfl rfl id

/-! ## Runs -/

/-- **The books are complete**, and what else is known when a commit is called for. -/
structure Accounts (s : Source) : Prop where
  complete : Complete s.toBooks
  counted : Counted s.toBooks
  calls : Calls s
  batch : s.batch.Pairwise (fun f g => f.tp = g.tp → f.offset < g.offset)
  awaits : s.pc.awaitsBatch = true → s.batch = []

theorem accounts_new (cfg : SourceConfig) : Accounts (Source.new cfg) where
  complete := AllCommitted.complete nofun
  counted := counted_new cfg
  calls := calls_of_none rfl
  batch := .nil
  awaits _ := rfl

/-- The offsets of a partition rise in the batch. -/
theorem Accounts.batch_step (hs : Accounts s) (h : s.step cfg retry e = some t) :
    t.batch.Pairwise (fun f g => f.tp = g.tp → f.offset < g.offset) := by
  have hbatch := hs.batch
  cases moves_step hs.awaits h with
  | fetches _ _ _ heq =>
    rw [heq]
    exact hbatch
  | receives hgrows _ _ _ heq =>
    rw [heq]
    exact hgrows.increasing
  | emits _ _ _ heq =>
    rw [heq] at hbatch
    exact (List.pairwise_cons.1 hbatch).2
  | poisons _ _ _ heq =>
    rw [heq] at hbatch
    exact (List.pairwise_append.1 hbatch).2.1
  | resets _ _ _ heq =>
    rw [heq]
    exact .nil

/-- **One step keeps the books complete.** -/
theorem complete_step (hmanual : cfg.enableAutoCommit = false) (hs : Accounts s)
    (hk : KeepsCommits cfg retry s e) (h : s.step cfg retry e = some t) :
    Complete t.toBooks := by
  have hretain : ∀ {b : Books}, Retains s.toBooks b → Complete b :=
    fun hb => hb.complete hs.complete
  have hforced : ∀ {caller force}, s.call = some (caller, force) → caller.forces = true →
      s.commitDue cfg force = false → AllCommitted s.toBooks := by
    intro caller force hcall hforces hdue
    rw [hs.calls.forced caller force hcall hforces] at hdue
    exact allCommitted_of_commitDue hmanual hs.complete hs.counted hdue
  cases step_reacts h with
  | idles _ h =>
    rw [h.books]
    exact hs.complete
  | errs _ _ _ _ _ _ hbooks h =>
    rw [h.books, hbooks]
    exact hretain (.of_eq rfl rfl rfl id)
  | opens => exact hretain (.of_eq rfl rfl rfl nofun)
  | closes hcall hdue =>
    have hall := hforced hcall rfl hdue
    exact AllCommitted.complete hall
  | checkpoints =>
    obtain ⟨_, _, heq⟩ := s.cursor.exists_currentCheckpoint_eq
    rw [heq]
    exact hretain (.of_eq rfl rfl rfl id)
  | starts =>
    have hreset : AllCommitted s.resetForStream.toBooks := hk.discarded rfl
    exact (retains_of_bootstraps (bootstraps_startStream s)).complete hreset.complete
  | refreshes _ hprobe =>
    obtain ⟨fs, hfs, _⟩ := probe_fetches hprobe
    exact (retains_of_bootstraps (bootstraps_applyInitialPositioning _).of_sync).complete
      (hretain (retains_of_fetches hfs))
  | positions _ hprobe =>
    obtain ⟨fs, hfs, _⟩ := probe_fetches hprobe
    exact (retains_of_bootstraps (bootstraps_seekAndStart _).of_sync).complete
      (hretain (retains_of_fetches hfs))
  | receives _ hfetch hne =>
    rw [receive_of_ne_nil hne]
    refine Retains.complete ?_ (hretain (retains_of_fetches (fetchAll_fetches hfetch)))
    exact .of_eq rfl rfl rfl id
  | emits =>
    refine hretain (.of_eq ?_ rfl rfl id)
    -- a record that has just been handed out is not acknowledged
    show ((s.deliveries ++ [_]).filter _).map _ ++ _ = _
    rw [List.filter_append, List.filter_cons_of_neg Bool.false_ne_true, List.filter_nil,
      List.append_nil]
    rfl
  | @passesOver i d _ hpc hd hack =>
    have hhandles : s.handles cfg retry .next = true := by simp [handles, hpc, hd, hack]
    have hfollows := hk.recorded hhandles d.message (by simp [concerned, hpc, hd])
    have hu : Complete s.clearActiveDelivery.toBooks := hs.complete
    exact complete_acknowledgeDelivery hu hfollows (hk.opened hhandles rfl)
  | @acknowledges i d _ hd hack =>
    have hhandles : s.handles cfg retry (.acknowledge i) = true := by simp [handles, hd, hack]
    have hfollows := hk.recorded hhandles d.message (by simp [concerned, hd])
    exact complete_acknowledgeDelivery hs.complete hfollows (hk.opened hhandles rfl)
  | @transacts i d hd =>
    have hfollows := hk.recorded rfl d.message (by simp [concerned, hd])
    exact complete_transactionCommitted hs.complete hfollows
  | @captures script stage e _ hpc hraises =>
    have hu : Complete (s.runPoison script (s.capture cfg retry stage e)).toBooks :=
      hretain (.of_eq rfl rfl rfl id)
    refine complete_poisonCaptured hu hs.batch (fun hcontinue => ?_)
    have hhandles : s.handles cfg retry (.captured script) = true := by
      simp [handles, hpc, hcontinue, hraises]
    exact ⟨hk.opened hhandles rfl, hk.recorded hhandles⟩
  | @drops e u _ _ _ hcaptures hu hfails =>
    have hdrops : cfg.poison.policy.shouldContinue = true →
        s.operator.opened = true ∧ ∀ f ∈ s.poisonMessages cfg, Follows s.toBooks f := by
      intro hcontinue
      have hhandles : s.handles cfg retry e = true :=
        handles_of_failsBatch hfails hcontinue hcaptures
      have hopened := hk.opened hhandles (by cases e <;> first | rfl | cases hfails)
      have hfollows := hk.recorded hhandles
      cases e <;> first | exact ⟨hopened, hfollows⟩ | cases hfails
    rcases hu with rfl | rfl
    · have hu : Complete (u.countErrors cfg).toBooks := hretain (.of_eq rfl rfl rfl id)
      exact complete_poisonCaptured hu hs.batch hdrops
    · have hu : Complete (s.clearActiveDelivery.countErrors cfg).toBooks :=
        hretain (.of_eq rfl rfl rfl id)
      exact complete_poisonCaptured hu hs.batch hdrops
  | @committed i c _ hc =>
    have hall := allCommitted_recordCommit hs.complete hs.counted hc (hk.count c hc)
    exact (hall.commitReturns c.caller).complete
  | @commitFailed i c _ hc =>
    have hu : Complete (s.dropCommit i).toBooks := hretain (.of_eq rfl rfl rfl id)
    rcases commitRaises_cases (s.dropCommit i) c.caller with
      hb | ⟨ps, _, hb⟩ | ⟨hclose, hb⟩ <;> rw [hb]
    · exact hu
    · refine Retains.complete ?_ hu
      exact .of_eq rfl rfl rfl id
    · have hall : AllCommitted s.toBooks := hk.discarded (by simp [discards, hc, hclose])
      exact AllCommitted.complete hall
  | revokes hcall hdue =>
    have hall := hforced hcall rfl hdue
    exact AllCommitted.complete hall
  | @assigns ps position =>
    have hsteady := ((Operator.unmoved_handlePartitionsAssigned ps)
      { s.operator with consumer := s.operator.consumer.assign ps position }).finalState.toSteady
    exact hretain (.of_eq rfl rfl rfl (fun hopened => hsteady.opened ▸ hopened))
  | pauses => exact hretain (retains_operate (Operator.unmoved_pause _))
  | unpauses => exact hretain (retains_operate (Operator.unmoved_resume _))
  | beginsSeek =>
    exact (retains_beginSeek _ _).complete (hretain (retains_syncAssignment s))
  | seeks =>
    have hall : AllCommitted s.syncAssignment.toBooks := hk.discarded rfl
    exact (hall.finishSeekToOffsets _).complete
  | @probesForSeek i _ offsets u hcall hprobe =>
    obtain ⟨fs, hfs, _⟩ := probe_fetches hprobe
    have hall : AllCommitted s.toBooks := hk.discarded (by simp [discards, hcall])
    have hu : AllCommitted u.syncAssignment.toBooks := by
      rw [hfs.eq]
      exact hall
    exact (hu.finishSeekToOffsets offsets).complete
  | @probesToBeginSeek i _ partitions u _ hprobe =>
    obtain ⟨fs, hfs, _⟩ := probe_fetches hprobe
    have hdrop : Complete (s.dropCall i).toBooks := hretain (.of_eq rfl rfl rfl id)
    have hu := (retains_of_fetches hfs).complete hdrop
    exact (retains_beginSeek _ partitions).complete ((retains_syncAssignment u).complete hu)
  | seeked =>
    have hall : AllCommitted s.toBooks := hk.discarded rfl
    exact AllCommitted.complete hall
  | _ => exact hretain (.of_eq rfl rfl rfl id)

theorem accounts_step (hmanual : cfg.enableAutoCommit = false) (hs : Accounts s)
    (hk : KeepsCommits cfg retry s e) (h : s.step cfg retry e = some t) : Accounts t where
  complete := complete_step hmanual hs hk h
  counted := counted_step hmanual hs.counted hk.count h
  calls := calls_step hs.calls h
  batch := hs.batch_step h
  awaits := batch_of_awaitsBatch hs.awaits h

/-- **When a commit has been made, no handled offset is uncommitted.** -/
theorem allCommitted_step (hmanual : cfg.enableAutoCommit = false) (hs : Accounts s)
    (hk : KeepsCommits cfg retry s e) (h : s.step cfg retry e = some t)
    (hsettles : s.settles cfg e = true) : AllCommitted t.toBooks := by
  cases e with
  | proceed =>
    obtain ⟨⟨caller, force⟩, hcall, hc⟩ := (Option.any_eq_true _ _).1 hsettles
    obtain ⟨hforce, hdue⟩ := Bool.and_eq_true_iff.1 hc
    have hforce : force = true := hforce
    subst hforce
    rw [Bool.not_eq_true'] at hdue
    have hall := allCommitted_of_commitDue hmanual hs.complete hs.counted hdue
    have hnone : s.call ≠ none := by
      rw [hcall]
      exact nofun
    cases step_reacts h with
    | idles _ h =>
      rw [h.books]
      exact hall
    | closes | revokes => exact hall
    | emits _ hcall | errs _ hcall | drops _ hcall => exact absurd hcall hnone
    | commits hcall' hdue' =>
      rw [hcall] at hcall'
      cases hcall'
      rw [hdue] at hdue'
      cases hdue'
    | asks _ hpart | beginsSeek _ hpart => cases hpart
  | committed i =>
    cases step_reacts h with
    | committed _ hc =>
      have hall := allCommitted_recordCommit hs.complete hs.counted hc (hk.count _ hc)
      exact hall.commitReturns _
    | idles he | errs he | drops he | asks he | beginsSeek he => cases he
    | emits he => rcases he with he | he <;> cases he
  | commitFailed i =>
    have hall : AllCommitted s.toBooks := hk.discarded hsettles
    cases step_reacts h with
    | @commitFailed _ c =>
      rcases commitRaises_cases (s.dropCommit i) c.caller with hb | ⟨ps, _, hb⟩ | ⟨_, hb⟩ <;>
        rw [hb] <;> exact hall
    | idles he | errs he | drops he | asks he | beginsSeek he => cases he
    | emits he => rcases he with he | he <;> cases he
  | _ => cases hsettles

/-- The first record is acknowledged and committed before the second is. Then the stream is closed,
which commits the second, and so is the source. -/
def committedInBetween : List Event :=
  twoRecords ++ [.acknowledge 0, .proceed, .commitNow, .committed 0, .next, .proceed,
    .deserialized, .acknowledge 1, .proceed, .closeStream, .proceed, .committed 0, .close, .proceed]

/-- The first record is acknowledged after a later one, in the next stream: the commit of `close`
names only the first. -/
def acknowledgedLate : List Event :=
  twoRecords ++ [.closeStream, .proceed, .stream, .polled [{ tp := ⟨"events", 0⟩, offset := 2 }],
    .deserialized, .acknowledge 1, .proceed, .acknowledge 0, .proceed, .close, .proceed,
    .committed 0]

example : ¬ AllSteps (step {} (KafkaSink.RetryAsync.upTo DLQRecord 1))
    (fun s e t => s.settles {} e = true → AllCommitted t.toBooks) (Source.new {})
    acknowledgedLate := by
  decide

end Source

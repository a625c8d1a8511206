import AgoraPlugins.Kafka.SourceSteps

/-!
# What a commit may cover

A commit that names offsets names, of each partition, the offset after the record of it that
was recorded as handled last. A commit without offsets is another matter: the consumer then
commits the positions it has fetched up to, and what it has fetched has not been delivered,
let alone handled.

`commit_if_needed` commits only with something pending, and `commit_now` in any case. So an
operator who commits while nothing is committable commits what is still in the batch. Apart
from this no commit goes beyond what has been handled (`handled_of_keepsHandled`): it is enough
that a commit is issued with some committable offset, or with no partition read past a record
that was fetched from it.
-/

open Machine

namespace Source

variable {cfg : SourceConfig} {retry : KafkaSink.RetryAsync DLQRecord} {s t u : Source}
  {e : Event}

/-- **The record of a partition that was recorded as handled last** in this stream. -/
def lastHandled (h : History) (tp : TopicPartition) : Option Fetched :=
  h.settled.reverse.findSome? (fun seq => (h.returned[seq]?).filter (fun f => f.tp = tp))

/-- **A position does not go beyond what has been handled** of its partition. With nothing
handled it covers no record that has been fetched. -/
def Within (h : History) (n : TopicPartition × ℤ) : Prop :=
  match lastHandled h n.1 with
  | some f => n.2 ≤ f.offset + 1
  | none => ∀ f ∈ h.returned, f.tp = n.1 → n.2 ≤ f.offset

instance (h : History) : DecidablePred (Within h) := fun n => by
  unfold Within
  split <;> infer_instance

/-- What a commit issued now takes to the broker: the offsets it names, or the position of each
assigned partition. -/
def Covers (s : Source) (c : CommitCall) : Prop :=
  match c.request with
  | .offsets named => ∀ n ∈ (CommitRequest.offsets named).named, Within s.history n
  | .consumed => ∀ tp ∈ s.operator.consumer.assignment,
    Within s.history (tp, s.operator.consumer.position tp)

instance (s : Source) : DecidablePred s.Covers := fun c => by
  unfold Covers
  split <;> infer_instance

/-- **The commits a step issues cover what has been handled.** -/
def CommitsHandled (s t : Source) : Prop := ∀ c ∈ s.issued t, s.Covers c

instance (s t : Source) : Decidable (CommitsHandled s t) :=
  inferInstanceAs (Decidable (∀ _ ∈ _, _))

/-- No assigned partition is read past a record that was fetched from it. -/
def Unread (s : Source) : Prop :=
  ∀ tp ∈ s.operator.consumer.assignment, ∀ f ∈ s.history.returned, f.tp = tp →
    s.operator.consumer.position tp ≤ f.offset

instance : DecidablePred Unread := fun _ => inferInstanceAs (Decidable (∀ _ ∈ _, _))

/-- **What must be so before a step** that issues a commit. -/
def KeepsHandled (cfg : SourceConfig) (s : Source) (e : Event) : Prop :=
  s.issuesCommit cfg e = true → s.cursor.committableOffsets.entries ≠ [] ∨ s.Unread

instance (s : Source) (e : Event) : Decidable (KeepsHandled cfg s e) :=
  inferInstanceAs (Decidable (_ → _))

/-! ## The last handled record -/

theorem lastHandled_concat {h : History} {f : Fetched} (hf : h.returned[f.seq]? = some f)
    (tp : TopicPartition) :
    lastHandled { h with settled := h.settled ++ [f.seq] } tp
      = if f.tp = tp then some f else lastHandled h tp := by
  unfold lastHandled
  rw [List.reverse_append, List.reverse_singleton, List.singleton_append, List.findSome?_cons, hf,
    Option.filter_some]
  by_cases htp : f.tp = tp <;> simp [htp]

/-- Records that are fetched later do not count. -/
theorem lastHandled_append {h h' : History} {fs : List Fetched}
    (hreturned : h'.returned = h.returned ++ fs) (hsettled : h'.settled = h.settled)
    (hlt : ∀ n ∈ h.settled, n < h.returned.length) (tp : TopicPartition) :
    lastHandled h' tp = lastHandled h tp := by
  have hcongr : ∀ ns : List ℕ, (∀ n ∈ ns, n < h.returned.length) →
      ns.findSome? (fun n => ((h.returned ++ fs)[n]?).filter (fun f => f.tp = tp))
        = ns.findSome? (fun n => (h.returned[n]?).filter (fun f => f.tp = tp)) := by
    intro ns hns
    induction ns with
    | nil => rfl
    | cons n ns ih =>
      rw [List.findSome?_cons, List.findSome?_cons,
        ih (fun m hm => hns m (List.mem_cons_of_mem n hm)),
        List.getElem?_append_left (hns n List.mem_cons_self)]
  unfold lastHandled
  rw [hsettled, hreturned]
  exact hcongr _ (fun n hn => hlt n (List.mem_reverse.1 hn))

theorem mem_of_lastHandled {h : History} {tp : TopicPartition} {f : Fetched}
    (hf : lastHandled h tp = some f) : f ∈ h.returned ∧ f.tp = tp := by
  obtain ⟨n, _, hn⟩ := List.exists_of_findSome?_eq_some hf
  obtain ⟨hget, htp⟩ := Option.filter_eq_some_iff.1 hn
  exact ⟨List.mem_of_getElem? hget, of_decide_eq_true htp⟩

/-- A record has the place of its number. -/
theorem getElem?_seq {fs : List Fetched} (hseqs : fs.map Fetched.seq = List.range fs.length)
    {f : Fetched} (hf : f ∈ fs) : fs[f.seq]? = some f := by
  obtain ⟨i, hi, hget⟩ := List.mem_iff_getElem.1 hf
  have hseq : f.seq = i := by
    have hmap : (fs.map Fetched.seq)[i]? = some f.seq := by
      rw [List.getElem?_map, List.getElem?_eq_getElem hi, hget, Option.map_some]
    rw [hseqs, List.getElem?_range hi] at hmap
    exact (Option.some.inj hmap).symm
  rw [hseq, List.getElem?_eq_getElem hi, hget]

/-! ## The invariant -/

/-- **What is committable is what has been handled last** of its partition. -/
structure Tracked (b : Books) : Prop where
  seqs : b.history.returned.map Fetched.seq = List.range b.history.returned.length
  batch : b.batch ⊆ b.history.returned
  deliveries : b.deliveries.map Delivery.message ⊆ b.history.returned
  settled : ∀ n ∈ b.history.settled, n < b.history.returned.length
  last : ∀ tp offset, b.cursor.committableOffsets.lookup tp = some offset →
    ∃ f, lastHandled b.history tp = some f ∧ f.offset = offset

/-- **Nothing more is committable**, and nothing has been handled. -/
structure Recedes (b b' : Books) : Prop where
  returned : b'.history.returned = b.history.returned
  settled : b'.history.settled = b.history.settled
  batch : b'.batch ⊆ b.batch
  deliveries : b'.deliveries.map Delivery.message ⊆ b.deliveries.map Delivery.message
  committable : ∀ tp offset, b'.cursor.committableOffsets.lookup tp = some offset →
    b.cursor.committableOffsets.lookup tp = some offset

theorem Recedes.tracked {b b' : Books} (h : Recedes b b') (hb : Tracked b) : Tracked b' where
  seqs := by
    rw [h.returned]
    exact hb.seqs
  batch := by
    rw [h.returned]
    exact List.Subset.trans h.batch hb.batch
  deliveries := by
    rw [h.returned]
    exact List.Subset.trans h.deliveries hb.deliveries
  settled := by
    rw [h.settled, h.returned]
    exact hb.settled
  last tp offset hl := by
    have hlast : lastHandled b'.history tp = lastHandled b.history tp := by
      unfold lastHandled
      rw [h.settled, h.returned]
    rw [hlast]
    exact hb.last tp offset (h.committable tp offset hl)

theorem Recedes.of_eq {b b' : Books} (hreturned : b'.history.returned = b.history.returned)
    (hsettled : b'.history.settled = b.history.settled) (hbatch : b'.batch ⊆ b.batch)
    (hdeliveries : b'.deliveries = b.deliveries)
    (hcursor : b'.cursor.committableOffsets = b.cursor.committableOffsets) : Recedes b b' where
  returned := hreturned
  settled := hsettled
  batch := hbatch
  deliveries := by
    rw [hdeliveries]
    exact List.Subset.refl _
  committable tp offset hl := by rwa [hcursor] at hl

/-- Nothing is committable any more. -/
theorem Recedes.of_empty {b b' : Books} (hreturned : b'.history.returned = b.history.returned)
    (hsettled : b'.history.settled = b.history.settled) (hbatch : b'.batch ⊆ b.batch)
    (hdeliveries : b'.deliveries = b.deliveries)
    (hcursor : b'.cursor.committableOffsets = ∅) : Recedes b b' where
  returned := hreturned
  settled := hsettled
  batch := hbatch
  deliveries := by
    rw [hdeliveries]
    exact List.Subset.refl _
  committable tp offset hl := by
    rw [hcursor, AList.lookup_empty] at hl
    cases hl

/-! ## The steps that handle records -/

/-- **A record is handled**: it is the last of its partition. -/
theorem Tracked.handle {b b' : Books} (hb : Tracked b) {f : Fetched}
    (hf : f ∈ b.history.returned) (hreturned : b'.history.returned = b.history.returned)
    (hsettled : b'.history.settled = b.history.settled ++ [f.seq])
    (hbatch : b'.batch ⊆ b.batch)
    (hdeliveries : b'.deliveries.map Delivery.message ⊆ b.deliveries.map Delivery.message)
    (hcursor : b'.cursor.committableOffsets
      = b.cursor.committableOffsets.insert f.tp f.offset) : Tracked b' where
  seqs := by
    rw [hreturned]
    exact hb.seqs
  batch := by
    rw [hreturned]
    exact List.Subset.trans hbatch hb.batch
  deliveries := by
    rw [hreturned]
    exact List.Subset.trans hdeliveries hb.deliveries
  settled n hn := by
    rw [hsettled] at hn
    rw [hreturned]
    rcases List.mem_append.1 hn with hn | hn
    · exact hb.settled n hn
    · rw [List.mem_singleton.1 hn]
      exact (List.getElem?_eq_some_iff.1 (getElem?_seq hb.seqs hf)).1
  last tp offset hl := by
    have hlast : lastHandled b'.history tp
        = if f.tp = tp then some f else lastHandled b.history tp := by
      rw [← lastHandled_concat (getElem?_seq hb.seqs hf)]
      unfold lastHandled
      rw [hsettled, hreturned]
    rw [hcursor] at hl
    rw [hlast]
    by_cases htp : tp = f.tp
    · rw [htp, AList.lookup_insert, Option.some.injEq] at hl
      exact ⟨f, if_pos htp.symm, hl⟩
    · rw [AList.lookup_insert_ne htp] at hl
      rw [if_neg (fun h => htp h.symm)]
      exact hb.last tp offset hl

theorem committableOffsets_markDelivered (f : Fetched) :
    (s.markDelivered cfg f).cursor.committableOffsets
      = s.cursor.committableOffsets.insert f.tp f.offset := by
  unfold markDelivered recordHandled CursorState.markDeliveredMessage
  dsimp only
  split <;> rfl

theorem tracked_markDelivered (hs : Tracked s.toBooks) {f : Fetched}
    (hf : f ∈ s.history.returned) : Tracked (s.markDelivered cfg f).toBooks :=
  hs.handle hf rfl rfl (List.Subset.refl _) (List.Subset.refl _)
    (committableOffsets_markDelivered f)

theorem tracked_dropMessages {messages : List Fetched} (hs : Tracked s.toBooks)
    (h : messages ⊆ s.history.returned) : Tracked (s.dropMessages cfg messages).toBooks := by
  induction messages generalizing s with
  | nil => exact hs
  | cons f messages ih =>
    refine ih (tracked_markDelivered hs (h List.mem_cons_self)) ?_
    exact fun g hg => h (List.mem_cons_of_mem f hg)

/-- The deliveries are of the same records. -/
theorem recedes_set {i : ℕ} {d : Delivery} (hd : s.deliveries[i]? = some d) :
    Recedes s.toBooks
      { s.toBooks with deliveries := s.deliveries.set i { d with acknowledged := true } } where
  returned := rfl
  settled := rfl
  batch := List.Subset.refl _
  deliveries := by
    show (s.deliveries.set i { d with acknowledged := true }).map Delivery.message ⊆ _
    rw [messages_set hd]
    exact List.Subset.refl _
  committable _ _ := id

theorem tracked_acknowledgeDelivery {i : ℕ} {d : Delivery} {caller : Caller}
    (hs : Tracked s.toBooks) (hd : s.deliveries[i]? = some d) :
    Tracked (s.acknowledgeDelivery cfg i d caller).toBooks := by
  rw [toBooks_acknowledgeDelivery]
  have hu : Tracked ({ s with
      deliveries := s.deliveries.set i { d with acknowledged := true } } : Source).toBooks :=
    (recedes_set hd).tracked hs
  refine tracked_markDelivered hu ?_
  exact hs.deliveries (List.mem_map_of_mem (List.mem_of_getElem? hd))

theorem tracked_transactionCommitted {i : ℕ} {d : Delivery} (hs : Tracked s.toBooks)
    (hd : s.deliveries[i]? = some d) : Tracked (s.transactionCommitted i d).toBooks := by
  have hmem : d.message ∈ s.history.returned :=
    hs.deliveries (List.mem_map_of_mem (List.mem_of_getElem? hd))
  exact hs.handle hmem rfl rfl (List.Subset.refl _) (recedes_set hd).deliveries rfl

/-- **Poison is dropped**, or fails the stream. -/
theorem tracked_poisonCaptured (hs : Tracked s.toBooks) :
    Tracked (s.poisonCaptured cfg).toBooks := by
  have htaken : Tracked (s.takePoison (s.poisonMessages cfg)).toBooks := by
    refine Recedes.tracked ?_ hs
    exact .of_eq rfl rfl (List.drop_subset _ _) rfl rfl
  unfold poisonCaptured
  dsimp only
  split
  · rw [toBooks_callCommit]
    refine tracked_dropMessages ?_ (fun f hf => hs.batch (subset_poisonMessages s cfg hf))
    refine Recedes.tracked ?_ htaken
    exact .of_eq rfl rfl (List.Subset.refl _) rfl rfl
  · obtain ⟨_, _, heq⟩ :=
      (s.takePoison (s.poisonMessages cfg)).cursor.exists_currentCheckpoint_eq
    rw [heq]
    refine Recedes.tracked ?_ htaken
    exact .of_eq rfl rfl (List.Subset.refl _) rfl rfl

/-! ## The other steps -/

theorem recedes_of_bootstraps (h : Bootstraps s t) : Recedes s.toBooks t.toBooks := by
  rw [h.books]
  exact .of_eq rfl rfl (List.Subset.refl _) rfl rfl

theorem recedes_syncAssignment (s : Source) : Recedes s.toBooks s.syncAssignment.toBooks :=
  .of_eq rfl rfl (List.Subset.refl _) rfl rfl

theorem recedes_finishSeekToOffsets (s : Source) (offsets : OffsetMap) :
    Recedes s.toBooks (s.finishSeekToOffsets offsets).toBooks := by
  rcases finishSeekToOffsets_cases s offsets with heq | ⟨_, _, heq⟩ <;> rw [heq]
  · exact .of_eq rfl rfl (List.Subset.refl _) rfl rfl
  · exact .of_empty rfl rfl (List.Subset.refl _) rfl rfl

theorem recedes_beginSeek (s : Source) (partitions : Option (Finset TopicPartition)) :
    Recedes s.toBooks (s.beginSeek partitions).toBooks := by
  rcases beginSeek_cases s partitions with heq | ⟨_, heq⟩ <;> rw [heq] <;>
    exact .of_eq rfl rfl (List.Subset.refl _) rfl rfl

theorem recedes_dropRevoked (s : Source) (ps : Finset TopicPartition) :
    Recedes s.toBooks ((s.dropRevoked ps).partitionsLost ps).toBooks where
  returned := rfl
  settled := rfl
  batch := List.Subset.refl _
  deliveries := List.Subset.refl _
  committable tp offset hl := by
    have hl : (Dict.without ps s.cursor.committableOffsets).lookup tp = some offset := hl
    rw [Dict.lookup_without] at hl
    split at hl
    · cases hl
    · exact hl

/-- **Records are fetched**, which are not handled yet. -/
theorem tracked_of_fetches {fs : List Fetched} (h : Fetches s fs t) (hs : Tracked s.toBooks) :
    Tracked t.toBooks := by
  have hreturned : t.history.returned = s.history.returned ++ fs := h.returned
  have hsettled : t.history.settled = s.history.settled := by rw [h.eq]
  have hsubset : s.history.returned ⊆ t.history.returned := by
    rw [hreturned]
    exact List.subset_append_left _ _
  constructor
  · rw [hreturned, List.map_append, hs.seqs, h.seqs, List.length_append, List.range_eq_range',
      List.range_eq_range', ← List.range'_append_1, Nat.zero_add]
  · rw [show t.batch = s.batch by rw [h.eq]]
    exact List.Subset.trans hs.batch hsubset
  · rw [show t.deliveries = s.deliveries by rw [h.eq]]
    exact List.Subset.trans hs.deliveries hsubset
  · intro n hn
    rw [hsettled] at hn
    rw [hreturned, List.length_append]
    exact Nat.lt_of_lt_of_le (hs.settled n hn) (Nat.le_add_right _ _)
  · intro tp offset hl
    rw [show t.cursor = s.cursor by rw [h.eq]] at hl
    rw [lastHandled_append hreturned hsettled hs.settled]
    exact hs.last tp offset hl

/-- A stream starts with nothing handled. -/
theorem tracked_resetForStream (hs : Tracked s.toBooks) : Tracked s.resetForStream.toBooks where
  seqs := hs.seqs
  batch := List.nil_subset _
  deliveries := hs.deliveries
  settled := nofun
  last tp offset hl := by
    have hl : (∅ : OffsetMap).lookup tp = some offset := hl
    rw [AList.lookup_empty] at hl
    cases hl

/-- **One step keeps track.** -/
theorem tracked_step (hs : Tracked s.toBooks) (h : s.step cfg retry e = some t) :
    Tracked t.toBooks := by
  have hsame : ∀ {b : Books}, b.history.returned = s.history.returned →
      b.history.settled = s.history.settled → b.batch = s.batch → b.deliveries = s.deliveries →
      b.cursor.committableOffsets = s.cursor.committableOffsets → Tracked b := by
    intro b hreturned hsettled hbatch hdeliveries hcursor
    refine Recedes.tracked (.of_eq hreturned hsettled ?_ hdeliveries hcursor) hs
    rw [hbatch]
    exact List.Subset.refl _
  cases step_reacts h with
  | idles _ h =>
    rw [h.books]
    exact hs
  | errs _ _ _ _ _ _ hbooks h =>
    rw [h.books, hbooks]
    exact hsame rfl rfl rfl rfl rfl
  | checkpoints =>
    obtain ⟨_, _, heq⟩ := s.cursor.exists_currentCheckpoint_eq
    rw [heq]
    exact hsame rfl rfl rfl rfl rfl
  | starts =>
    exact (recedes_of_bootstraps (bootstraps_startStream s)).tracked (tracked_resetForStream hs)
  | refreshes _ hprobe =>
    obtain ⟨fs, hfs, _⟩ := probe_fetches hprobe
    exact (recedes_of_bootstraps (bootstraps_applyInitialPositioning _).of_sync).tracked
      (tracked_of_fetches hfs hs)
  | positions _ hprobe =>
    obtain ⟨fs, hfs, _⟩ := probe_fetches hprobe
    exact (recedes_of_bootstraps (bootstraps_seekAndStart _).of_sync).tracked
      (tracked_of_fetches hfs hs)
  -- the records of a batch have been returned just now
  | @receives _ idlePolls messages u _ hfetch hne =>
    have hfs := fetchAll_fetches hfetch
    have hu : Tracked u.toBooks := tracked_of_fetches hfs hs
    rw [receive_of_ne_nil hne]
    refine ⟨hu.seqs, fun f hf => ?_, hu.deliveries, hu.settled, hu.last⟩
    show f ∈ u.history.returned
    rw [hfs.returned]
    exact List.mem_append_right _ hf
  -- a delivery is of a record of the batch, which was returned before
  | @emits _ f rest _ _ _ hbatch =>
    have hmem : f ∈ s.history.returned := by
      refine hs.batch ?_
      rw [hbatch]
      exact List.mem_cons_self
    refine ⟨hs.seqs, fun g hg => hs.batch ?_, fun g hg => ?_, hs.settled, hs.last⟩
    · rw [hbatch]
      exact List.mem_cons_of_mem f hg
    · have hg : g ∈ (s.deliveries ++ ([⟨f, false⟩] : List Delivery)).map Delivery.message := hg
      rw [List.map_append] at hg
      rcases List.mem_append.1 hg with hg | hg
      · exact hs.deliveries hg
      · rw [List.mem_singleton.1 hg]
        exact hmem
  | @passesOver i d _ _ hd =>
    have hu : Tracked s.clearActiveDelivery.toBooks := hs
    exact tracked_acknowledgeDelivery hu hd
  | acknowledges _ hd => exact tracked_acknowledgeDelivery hs hd
  | transacts hd => exact tracked_transactionCommitted hs hd
  | @captures script stage e =>
    have hu : Tracked (s.runPoison script (s.capture cfg retry stage e)).toBooks :=
      hsame rfl rfl rfl rfl rfl
    exact tracked_poisonCaptured hu
  | @drops e u _ _ _ _ hu =>
    rcases hu with rfl | rfl
    · have hu : Tracked (u.countErrors cfg).toBooks := hsame rfl rfl rfl rfl rfl
      exact tracked_poisonCaptured hu
    · have hu : Tracked (s.clearActiveDelivery.countErrors cfg).toBooks :=
        hsame rfl rfl rfl rfl rfl
      exact tracked_poisonCaptured hu
  | @committed i c =>
    have hu : Tracked ((s.dropCommit i).recordCommit c.request).toBooks :=
      hsame rfl rfl rfl rfl rfl
    rcases commitReturns_cases ((s.dropCommit i).recordCommit c.request) c.caller with
      hb | ⟨ps, _, hb⟩ | ⟨_, hb⟩ <;> rw [hb]
    · exact hu
    · exact (recedes_dropRevoked _ ps).tracked hu
    · refine Recedes.tracked ?_ hu
      exact .of_eq rfl rfl (List.Subset.refl _) rfl rfl
  | @commitFailed i c =>
    have hu : Tracked (s.dropCommit i).toBooks := hsame rfl rfl rfl rfl rfl
    rcases commitRaises_cases (s.dropCommit i) c.caller with hb | ⟨ps, _, hb⟩ | ⟨_, hb⟩ <;> rw [hb]
    · exact hu
    · refine Recedes.tracked ?_ hu
      exact .of_eq rfl rfl (List.Subset.refl _) rfl rfl
    · refine Recedes.tracked ?_ hu
      exact .of_eq rfl rfl (List.Subset.refl _) rfl rfl
  | revokes => exact (recedes_dropRevoked _ _).tracked hs
  | beginsSeek => exact (recedes_beginSeek _ _).tracked ((recedes_syncAssignment s).tracked hs)
  | seeks =>
    exact (recedes_finishSeekToOffsets _ _).tracked ((recedes_syncAssignment s).tracked hs)
  | @probesForSeek i _ offsets u _ hprobe =>
    obtain ⟨fs, hfs, _⟩ := probe_fetches hprobe
    have hdrop : Tracked (s.dropCall i).toBooks := hsame rfl rfl rfl rfl rfl
    have hu : Tracked u.toBooks := tracked_of_fetches hfs hdrop
    exact (recedes_finishSeekToOffsets _ offsets).tracked ((recedes_syncAssignment u).tracked hu)
  | @probesToBeginSeek i _ partitions u _ hprobe =>
    obtain ⟨fs, hfs, _⟩ := probe_fetches hprobe
    have hdrop : Tracked (s.dropCall i).toBooks := hsame rfl rfl rfl rfl rfl
    have hu : Tracked u.toBooks := tracked_of_fetches hfs hdrop
    exact (recedes_beginSeek _ partitions).tracked ((recedes_syncAssignment u).tracked hu)
  | seeked =>
    refine Recedes.tracked ?_ hs
    exact .of_empty rfl rfl (List.Subset.refl _) rfl rfl
  | _ => exact hsame rfl rfl rfl rfl rfl

/-! ## The commits -/

/-- A commit of committable offsets stays within what has been handled. -/
theorem within_of_named (hs : Tracked s.toBooks) {n : TopicPartition × ℤ}
    (hn : n ∈ (CommitRequest.of s.cursor.buildCommitOffsets).named) : Within s.history n := by
  obtain ⟨offset, hl, hoffset⟩ := mem_named_buildCommitOffsets_iff.1 hn
  obtain ⟨f, hf, hfoffset⟩ := hs.last n.1 offset hl
  unfold Within
  rw [hf]
  show n.2 ≤ f.offset + 1
  omega

/-- And so do the positions, if no partition is read past a record. -/
theorem within_of_unread (h : s.Unread) {tp : TopicPartition}
    (htp : tp ∈ s.operator.consumer.assignment) :
    Within s.history (tp, s.operator.consumer.position tp) := by
  unfold Within
  cases hlast : lastHandled s.history tp with
  | none => exact h tp htp
  | some f =>
    obtain ⟨hf, hftp⟩ := mem_of_lastHandled hlast
    have hle := h tp htp f hf hftp
    show s.operator.consumer.position tp ≤ f.offset + 1
    omega

theorem entries_buildCommitOffsets_ne_nil {c : CursorState}
    (h : c.committableOffsets.entries ≠ []) : c.buildCommitOffsets.entries ≠ [] := by
  intro hnil
  refine h (entries_eq_nil_of_lookup (fun tp => ?_))
  have hlookup := lookup_of_entries_eq_nil hnil tp
  unfold CursorState.buildCommitOffsets at hlookup
  rw [Dict.lookup_mapValues] at hlookup
  exact Option.map_eq_none_iff.1 hlookup

/-- **One step commits what has been handled.** -/
theorem commitsHandled_step (hs : Tracked s.toBooks) (hk : KeepsHandled cfg s e)
    (h : s.step cfg retry e = some t) : CommitsHandled s t := by
  intro c hc
  rcases issued_step h with hnone | ⟨hissues, _, caller, hbooks⟩
  · rw [hnone] at hc
    cases hc
  · rw [issued_of_books hbooks, List.mem_singleton] at hc
    subst hc
    have hnamed : ∀ n ∈ (CommitRequest.of s.cursor.buildCommitOffsets).named,
        Within s.history n := fun n hn => within_of_named hs hn
    unfold Covers
    dsimp only
    cases hrequest : CommitRequest.of s.cursor.buildCommitOffsets with
    | offsets named =>
      rw [hrequest] at hnamed
      exact hnamed
    | consumed =>
      have hempty : s.cursor.committableOffsets.entries = [] := by
        by_contra hne
        unfold CommitRequest.of at hrequest
        rw [if_pos (entries_buildCommitOffsets_ne_nil hne)] at hrequest
        cases hrequest
      have hunread : s.Unread := (hk hissues).resolve_left (fun hne => hne hempty)
      exact fun tp htp => within_of_unread hunread htp

/-- **No commit goes beyond what has been handled, in every run** in which a commit is issued
only with some committable offset, or with no assigned partition read past a record that was
fetched from it. -/
theorem handled_of_keepsHandled (cfg : SourceConfig) (retry : KafkaSink.RetryAsync DLQRecord)
    (es : List Event)
    (h : AllSteps (step cfg retry) (fun s e _ => KeepsHandled cfg s e) (Source.new cfg) es) :
    AllSteps (step cfg retry) (fun s _ t => CommitsHandled s t) (Source.new cfg) es := by
  have hinitial : Tracked (Source.new cfg).toBooks := by
    refine ⟨rfl, List.Subset.refl _, List.Subset.refl _, nofun, fun tp offset hl => ?_⟩
    cases hl
  refine allSteps_of_step (I := fun s => Tracked s.toBooks) ?_ hinitial h
  exact fun s e t hs hk hstep => ⟨tracked_step hs hstep, commitsHandled_step hs hk hstep⟩

/-- Two records of a partition are fetched, and the first is handed out. -/
def fetchedTwo : List Event :=
  [.open (fun _ => 0), .assigned {⟨"orders", 0⟩} (fun _ => 0), .commitNow, .committed 0, .stream,
    .polled [{ tp := ⟨"orders", 0⟩, offset := 0 }, { tp := ⟨"orders", 0⟩, offset := 1 }],
    .deserialized]

/-- The operator commits before anything is fetched, and once the first has been acknowledged. -/
theorem handled_acknowledgedFirst :
    AllSteps (step {} (KafkaSink.RetryAsync.upTo DLQRecord 1)) (fun s _ t => CommitsHandled s t)
      (Source.new {}) (fetchedTwo ++ [.acknowledge 0, .proceed, .commitNow]) := by
  refine handled_of_keepsHandled {} (KafkaSink.RetryAsync.upTo DLQRecord 1)
    (fetchedTwo ++ [.acknowledge 0, .proceed, .commitNow]) ?_
  decide

/-- **The operator commits before the first is acknowledged**, and with it the second, which
has not been delivered. -/
theorem not_handled_fetchedTwo :
    ¬ AllSteps (step {} (KafkaSink.RetryAsync.upTo DLQRecord 1)) (fun s _ t => CommitsHandled s t)
      (Source.new {}) (fetchedTwo ++ [.commitNow]) := by
  decide

end Source

import AgoraPlugins.Kafka.CheckpointChaining

/-!
# What a seek of the operator forgets

An operator seek moves the consumer, partition after partition or all with one call, and then
the cursor forgets what it has tracked. It forgets all of it, of every partition. And if the
consumer raises on the way it forgets nothing, also of the partitions it has been moved in:
`seek_to_beginning` and `seek_to_end` reset positions before they wait for the broker.

So a seek keeps to the partitions it is about in two cases only: it goes through and nothing is
tracked of any other partition, or it fails and nothing is tracked of those already sought
(`seekToOffsets_frame_iff`). Here the consumer's seeks may raise, at any of them; where none
does, the cursor is left as by the step of the machine (`cursor_seekToOffsets`).
-/

open Machine

namespace Source

variable {cfg : SourceConfig} {retry : KafkaSink.RetryAsync DLQRecord} {s : Source}
  {offsets : OffsetMap} {raises : TopicPartition → Bool}

/-! ## What is tracked of a partition -/

/-- **What is tracked of a partition**: the offset processed last, the one that may be
committed, the one a forced commit would name, and the one in the checkpoint. -/
structure Tracking where
  processed : Option ℤ
  committable : Option ℤ
  pending : Option ℤ
  checkpoint : Option ℤ
  deriving DecidableEq

/-- Nothing is tracked. -/
def Tracking.empty : Tracking := ⟨none, none, none, none⟩

/-- The tracking of a partition. -/
def tracking (s : Source) (tp : TopicPartition) : Tracking where
  processed := s.cursor.processedOffsets.lookup tp
  committable := s.cursor.committableOffsets.lookup tp
  pending := if s.cursor.pendingCommitCount = 0 then none
    else s.cursor.committableOffsets.lookup tp
  checkpoint := s.resumable.lookup tp

/-- Something is tracked of a partition. -/
def isTracked (s : Source) (tp : TopicPartition) : Bool :=
  (s.cursor.processedOffsets.lookup tp).isSome || (s.cursor.committableOffsets.lookup tp).isSome

/-! ## The two calls -/

/-- How a call ends: whether it raises, which partitions the consumer was moved in, and the
source it leaves. -/
structure SeekResult where
  raised : Bool
  sought : Finset TopicPartition
  after : Source

/-- The seeks that are executed, in order, up to the first that raises. -/
def executed (offsets : OffsetMap) (raises : TopicPartition → Bool) :
    List (Σ _ : TopicPartition, ℤ) :=
  (sortedItems offsets).takeWhile (fun e => !raises e.1)

/-- The partitions a call names. -/
def named (offsets : OffsetMap) : Finset TopicPartition := offsets.keys.toFinset

/-- **`seek_to_offsets`**, the assignment known, with a consumer that raises at these
partitions. -/
def seekToOffsets (s : Source) (offsets : OffsetMap) (raises : TopicPartition → Bool) :
    SeekResult :=
  if offsets.entries = [] then ⟨false, ∅, s⟩
  else if s.operator.opened = false then ⟨true, ∅, s⟩
  else
    let s := s.syncAssignment
    if Effect.raises (Operator.validateAssignedPartitions (named offsets)) s.operator then
      ⟨true, ∅, s⟩
    else
      let done := executed offsets raises
      let s := s.operate (done.forM (fun e => Operator.consumerSeek e.1 e.2))
      if (sortedItems offsets).any (fun e => raises e.1) then
        ⟨true, (done.map Sigma.fst).toFinset, s⟩
      else ⟨false, named offsets, { s with cursor := s.cursor.applyExactPositioning offsets }⟩

/-- **`seek_with_consumer_method`**, the assignment known: `seek_to_beginning` or `seek_to_end`
of the consumer, which moves to these positions or raises, when it may have moved some of its
partitions. -/
def seekWithConsumerMethod (s : Source) (partitions : Option (Finset TopicPartition))
    (raises : Option (Finset TopicPartition)) (position : TopicPartition → ℤ) : SeekResult :=
  if s.operator.opened = false then ⟨true, ∅, s⟩
  else
    let s := s.syncAssignment
    match Operator.resolveSeekTargets partitions s.operator with
    | .error _ _ => ⟨true, ∅, s⟩
    | .ok targets _ =>
      match raises with
      | some moved => ⟨true, targets ∩ moved, s.moveConsumer (targets ∩ moved) position⟩
      | none => ⟨false, targets, s.finishSeek targets position⟩

/-- **A call keeps to the partitions it has sought**: nothing else that is tracked changes, and
what was tracked of these is gone. -/
structure SeekFrame (s : Source) (r : SeekResult) : Prop where
  unsought : ∀ tp ∉ r.sought, r.after.tracking tp = s.tracking tp
  sought : ∀ tp ∈ r.sought, r.after.tracking tp = .empty

/-- **What must be so for `seek_to_offsets`** to keep to its partitions, if it is not refused. -/
def SeeksClean (s : Source) (offsets : OffsetMap) (raises : TopicPartition → Bool) : Prop :=
  offsets.entries ≠ [] → s.operator.opened = true →
    named offsets ⊆ s.operator.consumer.assignment →
    if (sortedItems offsets).any (fun e => raises e.1) then
      ∀ e ∈ executed offsets raises, s.isTracked e.1 = false
    else ∀ tp, s.isTracked tp = true → tp ∈ named offsets

/-- Whether a consumer method is called with these partitions, or with all that are assigned. -/
def Seekable (s : Source) : Option (Finset TopicPartition) → Prop
  | none => s.operator.consumer.assignment ≠ ∅
  | some targets => targets ⊆ s.operator.consumer.assignment

/-- **What must be so for `seek_with_consumer_method`**, if it is not refused. -/
def MethodClean (s : Source) (partitions : Option (Finset TopicPartition))
    (raises : Option (Finset TopicPartition)) : Prop :=
  s.operator.opened = true → s.Seekable partitions →
    match raises with
    | some moved => ∀ tp ∈ partitions.getD s.operator.consumer.assignment ∩ moved,
      s.isTracked tp = false
    | none => ∀ tp, s.isTracked tp = true →
      tp ∈ partitions.getD s.operator.consumer.assignment

/-! ## Where nothing is tracked -/

theorem tracking_eq_empty_iff (hs : s.cursor.Coherent) (tp : TopicPartition) :
    s.tracking tp = .empty ↔ s.isTracked tp = false := by
  have hcheckpoint : s.resumable.lookup tp = s.cursor.processedOffsets.lookup tp :=
    CursorState.lookup_resumedOffsets_currentCheckpoint hs tp
  unfold tracking isTracked Tracking.empty
  rw [hcheckpoint, Tracking.mk.injEq]
  constructor
  · rintro ⟨hprocessed, hcommittable, _, _⟩
    rw [hprocessed, hcommittable]
    rfl
  · intro h
    obtain ⟨hprocessed, hcommittable⟩ := Bool.or_eq_false_iff.1 h
    have hprocessed := Option.isSome_eq_false_iff.1 hprocessed
    have hcommittable := Option.isSome_eq_false_iff.1 hcommittable
    rw [Option.isNone_iff_eq_none.1 hprocessed, Option.isNone_iff_eq_none.1 hcommittable]
    exact ⟨rfl, rfl, ite_self _, rfl⟩

theorem tracking_of_cursor {t : Source} (h : t.cursor = s.cursor) (tp : TopicPartition) :
    t.tracking tp = s.tracking tp := by
  unfold tracking resumable
  rw [h]

/-- **Nothing is tracked any more** once the cursor has discarded it. -/
theorem tracking_of_discarded {t : Source} {c : CursorState}
    (h : t.cursor = c.discardTrackingState) (tp : TopicPartition) :
    t.tracking tp = .empty := by
  unfold tracking resumable
  rw [h]
  rfl

/-- A call that changes no tracking keeps to nothing, or to partitions with nothing tracked. -/
theorem seekFrame_of_cursor_iff (hs : s.cursor.Coherent) {r : SeekResult}
    (h : r.after.cursor = s.cursor) :
    SeekFrame s r ↔ ∀ tp ∈ r.sought, s.isTracked tp = false := by
  have hsame : ∀ tp, r.after.tracking tp = s.tracking tp := tracking_of_cursor h
  constructor
  · intro hframe tp htp
    rw [← tracking_eq_empty_iff hs, ← hsame tp]
    exact hframe.sought tp htp
  · refine fun hclean => ⟨fun tp _ => hsame tp, fun tp htp => ?_⟩
    rw [hsame tp, tracking_eq_empty_iff hs]
    exact hclean tp htp

/-- A call that discards the tracking keeps to all that is tracked. -/
theorem seekFrame_of_discarded_iff (hs : s.cursor.Coherent) {r : SeekResult} {c : CursorState}
    (h : r.after.cursor = c.discardTrackingState) :
    SeekFrame s r ↔ ∀ tp, s.isTracked tp = true → tp ∈ r.sought := by
  have hempty : ∀ tp, r.after.tracking tp = .empty := tracking_of_discarded h
  constructor
  · intro hframe tp htracked
    by_contra hnot
    have hsame := hframe.unsought tp hnot
    rw [hempty tp] at hsame
    rw [(tracking_eq_empty_iff hs tp).1 hsame.symm] at htracked
    cases htracked
  · refine fun hclean => ⟨fun tp hnot => ?_, fun tp _ => hempty tp⟩
    rw [hempty tp, eq_comm, tracking_eq_empty_iff hs]
    exact Bool.eq_false_iff.2 (fun htracked => hnot (hclean tp htracked))

/-! ## The two calls keep to their partitions -/

/-- Partitions that are not assigned are refused. -/
theorem raises_validateAssignedPartitions (targets : Finset TopicPartition) :
    Effect.raises (Operator.validateAssignedPartitions targets) s.syncAssignment.operator = true
      ↔ ¬ targets ⊆ s.operator.consumer.assignment := by
  have hactive : s.syncAssignment.operator.controls.activeAssignment
      = s.operator.consumer.assignment := rfl
  show Effect.raises (if targets ⊆ s.syncAssignment.operator.controls.activeAssignment then pure ⟨⟩
    else throw _ : OperatorM PUnit) s.syncAssignment.operator = true ↔ _
  rw [hactive]
  by_cases h : targets ⊆ s.operator.consumer.assignment
  · rw [if_pos h]
    exact iff_of_false Bool.false_ne_true (fun hnot => hnot h)
  · rw [if_neg h]
    exact iff_of_true rfl h

/-- **`seek_to_offsets` keeps to its partitions** exactly if it goes through with nothing
tracked of any other, or raises with nothing tracked of those sought so far. -/
theorem seekToOffsets_frame_iff (hs : s.cursor.Coherent) (offsets : OffsetMap)
    (raises : TopicPartition → Bool) :
    SeekFrame s (s.seekToOffsets offsets raises) ↔ SeeksClean s offsets raises := by
  have hrefused : ∀ {t : Source} {b : Bool}, t.cursor = s.cursor → SeekFrame s ⟨b, ∅, t⟩ :=
    fun h => (seekFrame_of_cursor_iff hs h).2 (fun tp htp => absurd htp (Finset.notMem_empty tp))
  unfold seekToOffsets SeeksClean
  by_cases hnil : offsets.entries = []
  · rw [if_pos hnil]
    exact iff_of_true (hrefused rfl) (fun hne => absurd hnil hne)
  · rw [if_neg hnil]
    cases hopened : s.operator.opened with
    | false =>
      rw [if_pos rfl]
      exact iff_of_true (hrefused rfl) nofun
    | true =>
      rw [if_neg nofun]
      dsimp only
      by_cases hassigned : named offsets ⊆ s.operator.consumer.assignment
      · rw [if_neg (fun hr => (raises_validateAssignedPartitions _).1 hr hassigned)]
        have hguard : ∀ {P : Prop}, (offsets.entries ≠ [] → true = true →
            named offsets ⊆ s.operator.consumer.assignment → P) ↔ P :=
          ⟨fun h => h hnil rfl hassigned, fun h _ _ _ => h⟩
        rw [hguard]
        split
        · -- the consumer raises on the way
          rw [seekFrame_of_cursor_iff hs rfl]
          simp only [List.mem_toFinset, List.mem_map, forall_exists_index, and_imp,
            forall_apply_eq_imp_iff₂]
        · exact seekFrame_of_discarded_iff (c := { s.cursor with
            startOffsets := offsets, resumeOffsets := ∅, positioningApplied := true }) hs rfl
      · rw [if_pos ((raises_validateAssignedPartitions _).2 hassigned)]
        exact iff_of_true (hrefused rfl) (fun _ _ h => absurd h hassigned)

/-- The targets that are resolved: those named, if they are assigned, or all there are. -/
theorem resolveSeekTargets_eq (partitions : Option (Finset TopicPartition)) :
    (∃ e, ¬ s.Seekable partitions
      ∧ Operator.resolveSeekTargets partitions s.syncAssignment.operator
        = .error e s.syncAssignment.operator)
      ∨ s.Seekable partitions
        ∧ Operator.resolveSeekTargets partitions s.syncAssignment.operator
          = .ok (partitions.getD s.operator.consumer.assignment) s.syncAssignment.operator := by
  have hactive : s.syncAssignment.operator.controls.activeAssignment
      = s.operator.consumer.assignment := rfl
  cases partitions with
  | none =>
    by_cases h : s.operator.consumer.assignment = ∅
    · refine .inl ⟨.exception "RuntimeError" ("KafkaSource has no active assignment yet, "
        ++ "so operator seek controls cannot resolve target partitions."), not_not_intro h, ?_⟩
      show (if s.syncAssignment.operator.controls.activeAssignment = ∅ then throw _
        else pure _ : OperatorM _) s.syncAssignment.operator = _
      rw [hactive, if_pos h]
      rfl
    · refine .inr ⟨h, ?_⟩
      show (if s.syncAssignment.operator.controls.activeAssignment = ∅ then throw _
        else pure _ : OperatorM _) s.syncAssignment.operator = _
      rw [hactive, if_neg h]
      rfl
  | some targets =>
    by_cases h : targets ⊆ s.operator.consumer.assignment
    · refine .inr ⟨h, ?_⟩
      show ((if targets ⊆ s.syncAssignment.operator.controls.activeAssignment then pure ⟨⟩
        else throw _ : OperatorM PUnit) >>= fun _ => pure targets) s.syncAssignment.operator = _
      rw [hactive, if_pos h]
      rfl
    · refine .inl ⟨.exception "ValueError"
        "KafkaSource operator controls can only target assigned partitions.", h, ?_⟩
      show ((if targets ⊆ s.syncAssignment.operator.controls.activeAssignment then pure ⟨⟩
        else throw _ : OperatorM PUnit) >>= fun _ => pure targets) s.syncAssignment.operator = _
      rw [hactive, if_neg h]
      rfl

/-- **`seek_with_consumer_method` keeps to its partitions** exactly if it goes through with nothing
tracked of any other, or raises with nothing tracked of those it has moved. -/
theorem seekWithConsumerMethod_frame_iff (hs : s.cursor.Coherent)
    (partitions raises : Option (Finset TopicPartition))
    (position : TopicPartition → ℤ) :
    SeekFrame s (s.seekWithConsumerMethod partitions raises position)
      ↔ MethodClean s partitions raises := by
  have hrefused : SeekFrame s ⟨true, ∅, s⟩ ∧ SeekFrame s ⟨true, ∅, s.syncAssignment⟩ :=
    ⟨(seekFrame_of_cursor_iff hs rfl).2 (fun tp htp => absurd htp (Finset.notMem_empty tp)),
      (seekFrame_of_cursor_iff hs rfl).2 (fun tp htp => absurd htp (Finset.notMem_empty tp))⟩
  have hfinish : ∀ targets : Finset TopicPartition,
      SeekFrame s ⟨false, targets, s.syncAssignment.finishSeek targets position⟩
        ↔ ∀ tp, s.isTracked tp = true → tp ∈ targets :=
    fun targets => seekFrame_of_discarded_iff (c := { s.cursor with
      startOffsets := ∅, resumeOffsets := ∅, positioningApplied := true }) hs rfl
  unfold seekWithConsumerMethod MethodClean
  cases hopened : s.operator.opened with
  | false =>
    rw [if_pos rfl]
    exact iff_of_true hrefused.1 nofun
  | true =>
    rw [if_neg nofun]
    dsimp only
    rcases resolveSeekTargets_eq (s := s) partitions with ⟨e, hmiss, heq⟩ | ⟨hmeet, heq⟩ <;> rw [heq]
    · exact iff_of_true hrefused.2 (fun _ hmeet => absurd hmeet hmiss)
    · have hguard : ∀ {P : Prop}, (true = true → s.Seekable partitions → P) ↔ P :=
        ⟨fun h => h rfl hmeet, fun h _ _ => h⟩
      rw [hguard]
      cases raises with
      | some moved => exact seekFrame_of_cursor_iff hs rfl
      | none => exact hfinish _

/-- Where no seek raises, the cursor is left as by the step of the machine. -/
theorem cursor_seekToOffsets (hne : offsets.entries ≠ []) (hopened : s.operator.opened = true)
    (hraises : (sortedItems offsets).any (fun e => raises e.1) = false) :
    (s.seekToOffsets offsets raises).after.cursor
      = (s.syncAssignment.finishSeekToOffsets offsets).cursor := by
  unfold seekToOffsets finishSeekToOffsets named
  rw [if_neg hne, hopened, if_neg nofun, hraises]
  dsimp only
  split
  · rfl
  · rfl

/-! ## In every reachable state -/

/-- **Operator seeks in a reachable state.** They keep to the partitions they have sought exactly
if they are refused, or go through with nothing tracked of any other, or raise with nothing
tracked of those that the consumer has been moved in. -/
theorem seeks_frame_iff (cfg : SourceConfig) (retry : KafkaSink.RetryAsync DLQRecord)
    {es : List Event} (hs : run (step cfg retry) (Source.new cfg) es = some s) :
    (∀ offsets raises, SeekFrame s (s.seekToOffsets offsets raises) ↔ SeeksClean s offsets raises)
      ∧ ∀ partitions raises position,
        SeekFrame s (s.seekWithConsumerMethod partitions raises position)
          ↔ MethodClean s partitions raises := by
  have hcoherent : AllStates (step cfg retry) (fun s => s.cursor.Coherent) (Source.new cfg) es := by
    refine allStates_of_invariant ?_ ?_ es
    · exact fun _ _ _ hs hstep => coherent_step hs hstep
    · exact .of_empty rfl rfl
  exact ⟨seekToOffsets_frame_iff (hcoherent.last hs),
    seekWithConsumerMethod_frame_iff (hcoherent.last hs)⟩

theorem mem_keys_of_isTracked {tp : TopicPartition} (h : s.isTracked tp = true) :
    tp ∈ s.cursor.processedOffsets.keys ++ s.cursor.committableOffsets.keys := by
  unfold isTracked at h
  rw [Bool.or_eq_true] at h
  rcases h with h | h
  · exact List.mem_append_left _ (AList.mem_keys.1 (AList.lookup_isSome.1 h))
  · exact List.mem_append_right _ (AList.mem_keys.1 (AList.lookup_isSome.1 h))

/-- Two partitions, of which a record of the first is handed out. -/
def handedOut : List Event :=
  [.open (fun _ => 0), .assigned {⟨"orders", 0⟩, ⟨"orders", 1⟩} (fun _ => 0), .stream,
    .polled [{ tp := ⟨"orders", 0⟩, offset := 4 }], .deserialized]

def handedOutOne : Source :=
  (run (step {} (KafkaSink.RetryAsync.upTo DLQRecord 1)) (Source.new {}) handedOut).getD
    (Source.new {})

theorem run_handedOut :
    run (step {} (KafkaSink.RetryAsync.upTo DLQRecord 1)) (Source.new {}) handedOut
      = some handedOutOne := by
  have hsome : (run (step {} (KafkaSink.RetryAsync.upTo DLQRecord 1)) (Source.new {})
      handedOut).isSome = true := by decide
  unfold handedOutOne
  obtain ⟨s, hs⟩ := Option.isSome_iff_exists.1 hsome
  rw [hs, Option.getD_some]

/-- An offset for each of them. -/
def bothOffsets : OffsetMap := Dict.ofList [⟨⟨"orders", 0⟩, 2⟩, ⟨⟨"orders", 1⟩, 7⟩]

/-- A seek in both that goes through. -/
theorem seeks_frame_both :
    run (step {} (KafkaSink.RetryAsync.upTo DLQRecord 1)) (Source.new {}) handedOut
        = some handedOutOne
      ∧ SeekFrame handedOutOne (handedOutOne.seekToOffsets bothOffsets (fun _ => false)) := by
  refine ⟨run_handedOut, ((seeks_frame_iff {} (KafkaSink.RetryAsync.upTo DLQRecord 1)
    run_handedOut).1 bothOffsets (fun _ => false)).2 (fun _ _ _ => ?_)⟩
  rw [if_neg (by decide)]
  intro tp htracked
  have hall : ∀ tp ∈ handedOutOne.cursor.processedOffsets.keys
      ++ handedOutOne.cursor.committableOffsets.keys, tp ∈ named bothOffsets := by decide
  exact hall tp (mem_keys_of_isTracked htracked)

/-- **A seek in one partition forgets the other**, and a seek that raises at the second has not
forgotten the first. -/
theorem not_seekFrame_handedOut :
    run (step {} (KafkaSink.RetryAsync.upTo DLQRecord 1)) (Source.new {}) handedOut
        = some handedOutOne
      ∧ ¬ SeekFrame handedOutOne (handedOutOne.seekToOffsets
        (Dict.ofList [⟨⟨"orders", 1⟩, 7⟩]) (fun _ => false))
      ∧ ¬ SeekFrame handedOutOne (handedOutOne.seekToOffsets bothOffsets
        (fun tp => tp = ⟨"orders", 1⟩)) := by
  refine ⟨run_handedOut, fun hframe => ?_, fun hframe => ?_⟩
  · have hunsought := hframe.unsought ⟨"orders", 0⟩ (by decide)
    revert hunsought
    decide
  · have hsought := hframe.sought ⟨"orders", 0⟩ (by decide)
    revert hsought
    decide

end Source

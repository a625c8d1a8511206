import AgoraPlugins.Kafka.SourceSteps
import Mathlib.Data.Finset.SDiff
import Mathlib.Data.Finset.Filter
import Mathlib.Data.Finset.Lattice.Lemmas

/-!
# Pausing and resuming

What the source reports as paused is kept in two parts, a flag for everything
and a set of names; what is paused at the consumer is a set of its own. The law
is that they agree on the assignment (`PauseConsistent`). Every call and every
rebalance keeps it but two, and these do so exactly when little is paused.

`resume()` without arguments lowers the flag and resumes the partitions paused
by name, if there are any: what was assigned while everything was paused, and
so has never been named, stays paused at the consumer. So does what comes after
a name that is not assigned any more, at which the consumer raises. And `resume` of an empty
list, which names nothing, passes `None` on and so resumes everything at the
consumer, while the source still reports what it reported.
-/

open Machine Effect

namespace Operator

/-! ## The calls, computed -/

/-- The controls have taken over the assignment of the consumer there is. -/
def synced (s : Operator) : Operator :=
  if s.opened then
    { s with controls := { s.controls with activeAssignment := s.consumer.assignment } }
  else s

/-- These partitions are paused at the consumer, as far as it comes. -/
def pausing (s : Operator) (targets : Finset TopicPartition) : Operator :=
  if s.opened && targets ≠ ∅ then
    { s with consumer := { s.consumer with
      paused := s.consumer.paused ∪ s.consumer.reached targets } }
  else s

/-- These partitions are resumed at the consumer, as far as it comes. -/
def unpausing (s : Operator) (targets : Finset TopicPartition) : Operator :=
  if s.opened && targets ≠ ∅ then
    { s with consumer := { s.consumer with
      paused := s.consumer.paused \ s.consumer.reached targets } }
  else s

/-- What the consumer is told it does, whether or not the call then raises about partitions that are
not assigned. -/
theorem finalState_modifyConsumer_requireAssigned (s : Operator) (f : Consumer → Consumer)
    (targets : Finset TopicPartition) :
    finalState (modifyConsumer f >>= fun _ => requireAssigned targets) s
      = { s with consumer := f s.consumer } := by
  have hcheck : Respects Eq (requireAssigned targets) := respects_requireAssigned targets
  exact (hcheck { s with consumer := f s.consumer }).finalState.symm

/-- **What `_apply_pause_state` leaves behind**: the consumer has paused the targets, as far as it
got. -/
theorem finalState_applyPauseState (s : Operator) (partitions : Option (Finset TopicPartition)) :
    finalState (applyPauseState partitions) s = s.pausing (pauseTargets s.controls partitions) := by
  show finalState (if s.opened && pauseTargets s.controls partitions ≠ ∅ then
    consumerPause (pauseTargets s.controls partitions) else pure ⟨⟩) s = _
  unfold pausing
  split
  · exact finalState_modifyConsumer_requireAssigned s _ _
  · rfl

/-- **What `_apply_resume_state` leaves behind**: the consumer has resumed the targets, as far as it
got. -/
theorem finalState_applyResumeState (s : Operator)
    (partitions : Option (Finset TopicPartition)) : finalState (applyResumeState partitions) s
      = s.unpausing (resumeTargets s.controls partitions) := by
  show finalState (if s.opened && resumeTargets s.controls partitions ≠ ∅ then
    consumerResume (resumeTargets s.controls partitions) else pure ⟨⟩) s = _
  unfold unpausing
  split
  · exact finalState_modifyConsumer_requireAssigned s _ _
  · rfl

/-- An operation that begins with a look at the assignment goes on from there. -/
theorem finalState_syncAssignmentFromConsumer_bind (s : Operator) (m : OperatorM PUnit) :
    finalState (syncAssignmentFromConsumer >>= fun _ => m) s = finalState m s.synced := by
  have hsync : syncAssignmentFromConsumer s = .ok ⟨⟩ s.synced := by
    show (if s.opened then syncActiveAssignment s.consumer.assignment else pure ⟨⟩ :
      OperatorM PUnit) s = _
    unfold synced
    split <;> rfl
  rw [finalState_bind, hsync]

/-- One that checks its targets goes on only if they are all assigned, and else does nothing. -/
theorem finalState_validateAssignedPartitions_bind (s : Operator)
    (targets : Finset TopicPartition) (m : OperatorM PUnit) :
    finalState (validateAssignedPartitions targets >>= fun _ => m) s
      = if targets ⊆ s.controls.activeAssignment then finalState m s else s := by
  have hcheck : validateAssignedPartitions targets s
      = if targets ⊆ s.controls.activeAssignment then .ok ⟨⟩ s
        else .error (.exception "ValueError"
          "KafkaSource operator controls can only target assigned partitions.") s := by
    show (if targets ⊆ s.controls.activeAssignment then pure ⟨⟩ else throw _ :
      OperatorM PUnit) s = _
    split <;> rfl
  rw [finalState_bind, hcheck]
  by_cases hsub : targets ⊆ s.controls.activeAssignment
  · rw [if_pos hsub, if_pos hsub]
  · rw [if_neg hsub, if_neg hsub]

section

variable (s : Operator) (targets : Finset TopicPartition)

/-- Pausing touches the consumer alone. -/
@[simp] theorem controls_pausing : (s.pausing targets).controls = s.controls := by
  unfold pausing
  split <;> rfl

/-- What is assigned stays assigned when it is paused. -/
@[simp] theorem assignment_pausing :
    (s.pausing targets).consumer.assignment = s.consumer.assignment := by
  unfold pausing
  split <;> rfl

@[simp] theorem controls_unpausing : (s.unpausing targets).controls = s.controls := by
  unfold unpausing
  split <;> rfl

/-- Resuming touches only what is paused. -/
@[simp] theorem assignment_unpausing :
    (s.unpausing targets).consumer.assignment = s.consumer.assignment := by
  unfold unpausing
  split <;> rfl

/-- A partition is paused that was, or that the call has come to. -/
@[simp] theorem mem_paused_pausing (tp : TopicPartition) :
    tp ∈ (s.pausing targets).consumer.paused ↔ tp ∈ s.consumer.paused
      ∨ s.opened = true ∧ tp ∈ s.consumer.reached targets := by
  unfold pausing
  by_cases hempty : targets = ∅
  · simp [hempty, Consumer.reached]
  · cases hopened : s.opened <;> simp [hempty]

/-- A partition stays paused unless the call has come to it. -/
@[simp] theorem mem_paused_unpausing (tp : TopicPartition) :
    tp ∈ (s.unpausing targets).consumer.paused ↔ tp ∈ s.consumer.paused
      ∧ ¬ (s.opened = true ∧ tp ∈ s.consumer.reached targets) := by
  unfold unpausing
  by_cases hempty : targets = ∅
  · simp [hempty, Consumer.reached]
  · cases hopened : s.opened <;> simp [hempty]

/-- A look at the assignment opens and closes nothing. -/
@[simp] theorem opened_synced : s.synced.opened = s.opened := by
  unfold synced
  split <;> rfl

/-- A look at the assignment leaves the consumer alone. -/
@[simp] theorem consumer_synced : s.synced.consumer = s.consumer := by
  unfold synced
  split <;> rfl

/-- It forgets no pause, also of a partition that is gone. -/
@[simp] theorem pausedPartitions_synced :
    s.synced.controls.pausedPartitions = s.controls.pausedPartitions := by
  unfold synced
  split <;> rfl

@[simp] theorem pauseAllRequested_synced :
    s.synced.controls.pauseAllRequested = s.controls.pauseAllRequested := by
  unfold synced
  split <;> rfl

end

/-- While the consumer is open, what the controls know is its assignment. -/
theorem activeAssignment_synced {s : Operator} (h : s.opened = true) :
    s.synced.controls.activeAssignment = s.consumer.assignment := by
  unfold synced
  rw [if_pos h]

/-! ## The law -/

/-- What the source reports of a partition. -/
def reportsPaused (s : Operator) (tp : TopicPartition) : Bool :=
  s.controls.pauseAllRequested || tp ∈ s.controls.pausedPartitions

/-- **The consumer has paused what is reported paused**, of what is assigned. -/
def PauseConsistent (s : Operator) : Prop :=
  s.consumer.paused = s.consumer.assignment.filter (fun tp => s.reportsPaused tp)

instance : DecidablePred PauseConsistent := fun _ => inferInstanceAs (Decidable (_ = _))

/-- **The report is right** about every partition: paused are those assigned that were asked for, by
name or with all of them. -/
theorem pauseConsistent_iff (s : Operator) : PauseConsistent s ↔ ∀ tp,
    tp ∈ s.consumer.paused ↔ tp ∈ s.consumer.assignment
      ∧ (s.controls.pauseAllRequested = true ∨ tp ∈ s.controls.pausedPartitions) := by
  unfold PauseConsistent reportsPaused
  rw [Finset.ext_iff]
  simp

/-- A consumer there is not has nothing assigned. -/
def Attached (s : Operator) : Prop := s.opened = false → s.consumer.assignment = ∅

/-- With everything to be paused, an argument-less call is about what is
active. -/
theorem pauseTargets_orNone_of_all {c : Controls} (h : c.pauseAllRequested = true) :
    pauseTargets c (orNone c.activeAssignment) = c.activeAssignment := by
  unfold pauseTargets orNone
  by_cases hempty : c.activeAssignment = ∅ <;> simp [hempty, h]

/-- What a call names is what it is about, once that is to be paused. -/
theorem pauseTargets_orNone_of_subset {c : Controls} {targets : Finset TopicPartition}
    (hne : targets ≠ ∅) (h : targets ⊆ if c.pauseAllRequested then c.activeAssignment
      else c.pausedPartitions) : pauseTargets c (orNone targets) = targets := by
  unfold pauseTargets orNone
  simpa [hne] using Finset.inter_eq_right.2 h

/-- Pausing leaves the report right if it is right of what has been paused then. -/
theorem pauseConsistent_pausing {s : Operator} {targets : Finset TopicPartition}
    (h : ∀ tp, (tp ∈ s.consumer.paused ∨ s.opened = true ∧ tp ∈ s.consumer.reached targets)
      ↔ tp ∈ s.consumer.assignment
        ∧ (s.controls.pauseAllRequested = true ∨ tp ∈ s.controls.pausedPartitions)) :
    PauseConsistent (s.pausing targets) := by
  rw [pauseConsistent_iff]
  intro tp
  rw [mem_paused_pausing, assignment_pausing, controls_pausing]
  exact h tp

/-- The report does not depend on what the controls know of the assignment. -/
theorem pauseConsistent_synced (s : Operator) : PauseConsistent s.synced ↔ PauseConsistent s := by
  rw [pauseConsistent_iff, pauseConsistent_iff]
  simp

/-- **Pausing keeps the law.** -/
theorem pauseConsistent_pause {s : Operator} (hs : PauseConsistent s) (hattached : s.Attached)
    (partitions : Option (Finset TopicPartition)) :
    PauseConsistent (finalState (pause partitions) s) := by
  rw [pauseConsistent_iff] at hs
  unfold pause
  rw [finalState_syncAssignmentFromConsumer_bind]
  cases partitions with
  | none =>
    show PauseConsistent (finalState (applyPauseState (orNone s.synced.controls.activeAssignment))
      { s.synced with controls := { s.synced.controls with
        pauseAllRequested := true
        pausedPartitions := s.synced.controls.pausedPartitions
          ∪ s.synced.controls.activeAssignment } })
    rw [finalState_applyPauseState, pauseTargets_orNone_of_all rfl]
    refine pauseConsistent_pausing (fun tp => ?_)
    dsimp only
    rw [consumer_synced, opened_synced, hs tp]
    cases hopened : s.opened with
    | false => simp [hattached hopened]
    | true =>
      rw [activeAssignment_synced hopened, Consumer.reached_of_subset (Finset.Subset.refl _)]
      tauto
  | some targets =>
    show PauseConsistent (finalState (validateAssignedPartitions targets >>= fun _ => _) s.synced)
    rw [finalState_validateAssignedPartitions_bind]
    split
    · rename_i hsub
      show PauseConsistent (finalState (applyPauseState (orNone targets))
        { s.synced with controls := { s.synced.controls with
          pausedPartitions := s.synced.controls.pausedPartitions ∪ targets } })
      rw [finalState_applyPauseState]
      refine pauseConsistent_pausing (fun tp => ?_)
      dsimp only
      rw [consumer_synced, opened_synced, hs tp]
      cases hopened : s.opened with
      | false => simp [hattached hopened]
      | true =>
        rw [activeAssignment_synced hopened] at hsub
        by_cases hempty : targets = ∅
        · subst hempty
          have hnamed : tp ∈ s.consumer.reached s.controls.pausedPartitions →
              tp ∈ s.consumer.assignment ∧ tp ∈ s.controls.pausedPartitions := fun h =>
            ⟨Consumer.mem_assignment_of_reached h, Consumer.reached_subset _ _ h⟩
          unfold pauseTargets orNone
          cases hall : s.controls.pauseAllRequested with
          | true =>
            simp [hall, activeAssignment_synced hopened,
              Consumer.reached_of_subset (Finset.Subset.refl _)]
          | false =>
            simp [hall]
            tauto
        · rw [pauseTargets_orNone_of_subset hempty, Consumer.reached_of_subset hsub]
          · rw [Finset.mem_union, pausedPartitions_synced, pauseAllRequested_synced]
            have hassigned : tp ∈ targets → tp ∈ s.consumer.assignment := fun h => hsub h
            tauto
          · show targets ⊆ if s.synced.controls.pauseAllRequested = true
              then s.synced.controls.activeAssignment
              else s.synced.controls.pausedPartitions ∪ targets
            rw [activeAssignment_synced hopened]
            split
            · exact hsub
            · exact Finset.subset_union_right
    · exact (pauseConsistent_synced s).2 ((pauseConsistent_iff s).2 hs)

/-- What an argument-less `resume` would have to find for the law to hold after
it: nothing named; or all that is paused is named, with nothing before it that
is named and not assigned. -/
def ResumesAll (s : Operator) : Prop :=
  s.controls.pausedPartitions = ∅
    ∨ ∀ tp ∈ s.consumer.paused, tp ∈ s.controls.pausedPartitions
      ∧ ∀ tp' ∈ s.controls.pausedPartitions, tp'.le tp → tp' ∈ s.consumer.assignment

/-- After a resumption the law says which of the paused partitions the consumer
has resumed. -/
theorem pauseConsistent_unpausing_iff (s : Operator) (targets : Finset TopicPartition) :
    PauseConsistent (s.unpausing targets) ↔ ∀ tp, (tp ∈ s.consumer.paused
        ∧ ¬ (s.opened = true ∧ tp ∈ s.consumer.reached targets))
      ↔ tp ∈ s.consumer.assignment
        ∧ (s.controls.pauseAllRequested = true ∨ tp ∈ s.controls.pausedPartitions) := by
  rw [pauseConsistent_iff]
  simp only [mem_paused_unpausing, assignment_unpausing, controls_unpausing]

/-- No targets at all means all partitions. -/
theorem resumeTargets_orNone (c : Controls) (targets : Finset TopicPartition) :
    resumeTargets c (orNone targets) = if targets = ∅ then c.activeAssignment else targets := by
  unfold resumeTargets orNone
  split <;> rfl

/-- **An argument-less `resume` keeps the law just when it resumes all.** -/
theorem pauseConsistent_resume_none {s : Operator} (hs : PauseConsistent s)
    (hattached : s.Attached) :
    PauseConsistent (finalState (resume none) s) ↔ s.ResumesAll := by
  rw [pauseConsistent_iff] at hs
  have hresumed : PauseConsistent (finalState (resume none) s) ↔ ∀ tp ∈ s.consumer.paused,
      s.opened = true ∧ tp ∈ s.consumer.reached (if s.controls.pausedPartitions = ∅
        then s.consumer.assignment else s.controls.pausedPartitions) := by
    unfold resume
    rw [finalState_syncAssignmentFromConsumer_bind]
    show PauseConsistent (finalState (applyResumeState (orNone
      (if s.synced.controls.pausedPartitions ≠ ∅ then s.synced.controls.pausedPartitions
        else s.synced.controls.activeAssignment)))
      { s.synced with controls := { s.synced.controls with
        pauseAllRequested := false
        pausedPartitions := ∅ } }) ↔ _
    rw [finalState_applyResumeState, pauseConsistent_unpausing_iff, resumeTargets_orNone]
    dsimp only
    rw [consumer_synced, opened_synced, pausedPartitions_synced]
    refine forall_congr' (fun tp => ?_)
    cases hopened : s.opened with
    | false => simp
    | true =>
      rw [activeAssignment_synced hopened]
      by_cases hnamed : s.controls.pausedPartitions = ∅
      · simp [hnamed]
      · simp [hnamed]
  rw [hresumed]
  unfold ResumesAll
  cases hopened : s.opened with
  | false =>
    have hnone : s.consumer.paused = ∅ := by
      refine Finset.eq_empty_of_forall_notMem (fun tp htp => ?_)
      have hassigned := ((hs tp).1 htp).1
      rw [hattached hopened] at hassigned
      exact Finset.notMem_empty tp hassigned
    simp [hnone]
  | true =>
    by_cases hnamed : s.controls.pausedPartitions = ∅
    · simp only [hnamed, if_true, true_or, iff_true,
        Consumer.reached_of_subset (Finset.Subset.refl _)]
      exact fun tp htp => ⟨trivial, ((hs tp).1 htp).1⟩
    · simp only [hnamed, if_false, false_or, true_and, Consumer.reached, Finset.mem_filter]

/-- **What is reported after resuming**: nothing that was named, and of the rest what was reported
before. A request to pause everything becomes a list of the partitions that are assigned now. -/
theorem reports_resumed_iff (c : Controls) (targets : Finset TopicPartition)
    (tp : TopicPartition) :
    ((c.resumed targets).pauseAllRequested = true ∨ tp ∈ (c.resumed targets).pausedPartitions)
      ↔ tp ∉ targets ∧ if c.pauseAllRequested then tp ∈ c.activeAssignment
        else tp ∈ c.pausedPartitions := by
  unfold Controls.resumed
  cases c.pauseAllRequested with
  | false => simp [and_comm]
  | true => simp [and_comm]

/-- **Resuming by name keeps the law**, but for an empty list of names while
something is paused. -/
theorem pauseConsistent_resume_some {s : Operator} (hs : PauseConsistent s)
    (hattached : s.Attached) (targets : Finset TopicPartition) :
    PauseConsistent (finalState (resume (some targets)) s)
      ↔ (targets = ∅ → s.consumer.paused = ∅) := by
  have hs' := (pauseConsistent_iff s).1 hs
  unfold resume
  rw [finalState_syncAssignmentFromConsumer_bind]
  show PauseConsistent (finalState (validateAssignedPartitions targets >>= fun _ => _) s.synced)
    ↔ _
  rw [finalState_validateAssignedPartitions_bind]
  split
  · rename_i hsub
    show PauseConsistent (finalState (applyResumeState (orNone targets))
      { s.synced with controls := s.synced.controls.resumed targets }) ↔ _
    have hactive : (s.synced.controls.resumed targets).activeAssignment
        = s.synced.controls.activeAssignment := by
      unfold Controls.resumed
      split <;> rfl
    rw [finalState_applyResumeState, pauseConsistent_unpausing_iff, resumeTargets_orNone]
    dsimp only
    simp only [reports_resumed_iff]
    rw [consumer_synced, opened_synced, pauseAllRequested_synced, pausedPartitions_synced, hactive]
    cases hopened : s.opened with
    | false =>
      have hnone : s.consumer.paused = ∅ := by
        refine Finset.eq_empty_of_forall_notMem (fun tp htp => ?_)
        have hassigned := ((hs' tp).1 htp).1
        rw [hattached hopened] at hassigned
        exact Finset.notMem_empty tp hassigned
      simp [hnone, hattached hopened]
    | true =>
      rw [activeAssignment_synced hopened] at hsub ⊢
      by_cases hempty : targets = ∅
      · -- nothing is named: everything is resumed, and nothing forgotten
        subst hempty
        simp only [if_true, Consumer.reached_of_subset (Finset.Subset.refl _), true_and, Finset.notMem_empty, not_false_eq_true,
          Finset.eq_empty_iff_forall_notMem, forall_const]
        refine forall_congr' (fun tp => ?_)
        have hs' := hs' tp
        cases hall : s.controls.pauseAllRequested <;> simp [hall] at hs' ⊢ <;> tauto
      · simp only [hempty, if_false, Consumer.reached_of_subset hsub, true_and, false_implies,
          iff_true]
        intro tp
        have hs' := hs' tp
        cases hall : s.controls.pauseAllRequested <;> simp [hall] at hs' ⊢ <;> tauto
  · rename_i hsub
    have hne : targets ≠ ∅ := by
      rintro rfl
      exact hsub (Finset.empty_subset _)
    exact iff_of_true ((pauseConsistent_synced s).2 hs) (fun hempty => absurd hempty hne)

/-- **Pausing at the consumer what is to be paused** keeps the law: it never
pauses more than is reported. -/
theorem pauseConsistent_applyPauseState {s : Operator} (hs : PauseConsistent s)
    (partitions : Option (Finset TopicPartition)) :
    PauseConsistent (finalState (applyPauseState partitions) s) := by
  rw [pauseConsistent_iff] at hs
  have hreported : ∀ tp ∈ pauseTargets s.controls partitions,
      s.controls.pauseAllRequested = true ∨ tp ∈ s.controls.pausedPartitions := by
    intro tp htp
    have htp : tp ∈ if s.controls.pauseAllRequested then s.controls.activeAssignment
        else s.controls.pausedPartitions := by
      unfold pauseTargets at htp
      cases partitions with
      | none => exact htp
      | some requested =>
        dsimp only at htp
        by_cases hempty : requested = ∅
        · rwa [if_pos hempty] at htp
        · rw [if_neg hempty] at htp
          exact Finset.mem_of_mem_inter_left htp
    cases hall : s.controls.pauseAllRequested with
    | true => exact .inl rfl
    | false =>
      rw [hall] at htp
      exact .inr htp
  rw [finalState_applyPauseState]
  refine pauseConsistent_pausing (fun tp => ?_)
  rw [hs tp]
  constructor
  · rintro (h | ⟨_, htp⟩)
    · exact h
    · exact ⟨Consumer.mem_assignment_of_reached htp,
        hreported tp (Consumer.reached_subset _ _ htp)⟩
  · exact .inl

/-- **The assigned callback keeps the law**: what is assigned anew comes
unpaused, and is paused if it is to be. -/
theorem pauseConsistent_assigned {s : Operator} (hs : PauseConsistent s)
    (hopened : s.opened = true) (ps : Finset TopicPartition) (position : TopicPartition → ℤ) :
    PauseConsistent (finalState (handlePartitionsAssigned ps)
      { s with consumer := s.consumer.assign ps position }) := by
  rw [pauseConsistent_iff] at hs
  show PauseConsistent (finalState (applyPauseState (some ps))
    { s with
      controls := { s.controls with activeAssignment := ps }
      consumer := s.consumer.assign ps position })
  rw [finalState_applyPauseState]
  refine pauseConsistent_pausing (fun tp => ?_)
  dsimp only
  generalize hassign : s.consumer.assign ps position = c
  have hassignment : tp ∈ c.assignment ↔ tp ∈ s.consumer.assignment ∨ tp ∈ ps := by
    rw [← hassign, Consumer.assign, Finset.mem_union]
  have hpaused : tp ∈ c.paused ↔ tp ∈ s.consumer.paused ∧ tp ∉ ps := by
    rw [← hassign, Consumer.assign, Finset.mem_sdiff]
  have hps : ps ⊆ c.assignment := by
    rw [← hassign]
    exact Finset.subset_union_right
  rw [hassignment, hpaused, hs tp]
  unfold pauseTargets
  by_cases hempty : ps = ∅
  · subst hempty
    have hnamed : tp ∈ c.reached s.controls.pausedPartitions →
        tp ∈ s.consumer.assignment ∧ tp ∈ s.controls.pausedPartitions := fun h =>
      ⟨by simpa using hassignment.1 (Consumer.mem_assignment_of_reached h),
        Consumer.reached_subset _ _ h⟩
    cases hall : s.controls.pauseAllRequested with
    | true => simp [hopened, Consumer.reached_of_subset hps]
    | false =>
      simp [hopened]
      tauto
  · cases hall : s.controls.pauseAllRequested with
    | true =>
      simp [hopened, hempty, Consumer.reached_of_subset hps]
      tauto
    | false =>
      have hreached : c.reached (s.controls.pausedPartitions ∩ ps)
          = s.controls.pausedPartitions ∩ ps :=
        Consumer.reached_of_subset (Finset.inter_subset_right.trans hps)
      simp [hopened, hempty, hreached]
      tauto

end Operator

namespace Operator

/-- **Nothing of the law has changed**: at most what is taken for the assignment,
and positions. -/
structure Aligned (s t : Operator) : Prop extends Steady s t where
  paused : t.consumer.paused = s.consumer.paused
  pausedPartitions : t.controls.pausedPartitions = s.controls.pausedPartitions
  pauseAllRequested : t.controls.pauseAllRequested = s.controls.pauseAllRequested

instance : IsPreorder Operator Aligned where
  refl _ := ⟨⟨rfl, rfl⟩, rfl, rfl, rfl⟩
  trans _ _ _ h h' := ⟨trans_of Steady h.toSteady h'.toSteady, h'.paused.trans h.paused,
    h'.pausedPartitions.trans h.pausedPartitions,
    h'.pauseAllRequested.trans h.pauseAllRequested⟩

/-- What is paused and reported stays the same, so the report stays right. -/
theorem Aligned.pauseConsistent {s t : Operator} (h : Aligned s t) (hs : PauseConsistent s) :
    PauseConsistent t := by
  unfold PauseConsistent reportsPaused at *
  rw [h.assignment, h.paused, h.pausedPartitions, h.pauseAllRequested]
  exact hs

/-- Seeking pauses and resumes nothing. -/
theorem Sought.aligned {s t : Operator} (h : Sought s t) : Aligned s t where
  toSteady := h.toSteady
  paused := h.paused
  pausedPartitions := by rw [h.controls]
  pauseAllRequested := by rw [h.controls]

/-- What is steady closes no consumer. -/
theorem Steady.attached {s t : Operator} (h : Steady s t) (hs : s.Attached) : t.Attached := by
  intro hopened
  rw [h.assignment, hs (h.opened ▸ hopened)]

/-- A consumer with nothing assigned has nothing paused, and the law is empty. -/
theorem pauseConsistent_of_unassigned {s : Operator} (hpaused : s.consumer.paused = ∅)
    (hassignment : s.consumer.assignment = ∅) : PauseConsistent s := by
  unfold PauseConsistent
  rw [hpaused, hassignment, Finset.filter_empty]

end Operator

namespace Source

open Operator

variable {cfg : SourceConfig} {retry : KafkaSink.RetryAsync DLQRecord} {s t : Source} {e : Event}

/-! ## The steps of the source -/

/-- **What must be so before a step** for the law to hold after it. -/
def KeepsPause (cfg : SourceConfig) (s : Source) : Event → Prop
  | .open _ => ∀ tp ∈ cfg.assignments, s.operator.reportsPaused tp = false
  | .resume none => s.operator.ResumesAll
  | .resume (some targets) => targets = ∅ → s.operator.consumer.paused = ∅
  | _ => True

/-- An event that has to do with no pause needs no condition. -/
theorem keepsPause_of_isQuiet (he : e.isQuiet = true) : KeepsPause cfg s e := by
  cases e <;> trivial

/-- **Fetching** pauses nothing, and reports what was reported. -/
theorem aligned_of_fetches {fs : List Fetched} (h : Fetches s fs t) :
    Aligned s.operator t.operator := by
  rw [h.eq]
  exact ⟨⟨rfl, rfl⟩, rfl, rfl, rfl⟩

/-- A poll starts, and the report stays right. -/
theorem pauseConsistent_startPolling (hs : PauseConsistent s.operator) :
    PauseConsistent s.startPolling.operator := by
  have hpause := pauseConsistent_applyPauseState hs none
  unfold startPolling
  split <;> exact hpause

/-- The seek that a stream begins with leaves the report right. -/
theorem pauseConsistent_seekAndStart (hs : PauseConsistent s.operator) :
    PauseConsistent s.seekAndStart.operator := by
  have hsought := ((sought_seekTargets s.cursor.positioningTargets s.cursor.hasExactStartOffsets
    s.operator).finalState).aligned.pauseConsistent hs
  unfold seekAndStart
  dsimp only
  split
  · exact hsought
  · exact pauseConsistent_startPolling hsought

theorem pauseConsistent_applyInitialPositioning (hs : PauseConsistent s.operator) :
    PauseConsistent s.applyInitialPositioning.operator := by
  unfold applyInitialPositioning
  split
  · exact pauseConsistent_startPolling hs
  · split
    · exact pauseConsistent_startPolling (s := s.markPositioningApplied) hs
    · split
      · exact pauseConsistent_seekAndStart hs
      · exact hs

theorem pauseConsistent_syncAssignment (hs : PauseConsistent s.operator) :
    PauseConsistent s.syncAssignment.operator :=
  Aligned.pauseConsistent (s := s.operator) ⟨⟨rfl, rfl⟩, rfl, rfl, rfl⟩ hs

/-- **A stream starts**: of all that happens then, nothing pauses. -/
theorem pauseConsistent_startStream (hs : PauseConsistent s.operator) :
    PauseConsistent s.startStream.operator := by
  unfold startStream
  dsimp only
  split
  · exact hs
  · exact pauseConsistent_applyInitialPositioning
      (pauseConsistent_syncAssignment (s := s.resetForStream) hs)

/-- Partitions that are lost are no longer assigned, nor reported. -/
theorem pauseConsistent_partitionsLost (ps : Finset TopicPartition)
    (hs : PauseConsistent s.operator) : PauseConsistent (s.partitionsLost ps).operator := by
  rw [pauseConsistent_iff] at *
  intro tp
  have hs := hs tp
  show tp ∈ s.operator.consumer.paused \ ps ↔ tp ∈ s.operator.consumer.assignment \ ps ∧ _
  simp only [Finset.mem_sdiff]
  tauto

/-- **Partitions that are revoked** have their records dropped, and are lost then. -/
theorem pauseConsistent_dropRevoked (ps : Finset TopicPartition)
    (hs : PauseConsistent s.operator) :
    PauseConsistent ((s.dropRevoked ps).partitionsLost ps).operator := by
  rw [pauseConsistent_iff] at *
  intro tp
  have hs := hs tp
  show tp ∈ s.operator.consumer.paused \ ps ↔ tp ∈ s.operator.consumer.assignment \ ps
    ∧ (_ ∨ tp ∈ s.operator.controls.pausedPartitions \ ps)
  simp only [Finset.mem_sdiff]
  tauto

/-- **A consumer that is opened** has nothing paused, so the report is right of it just if nothing
is reported. -/
theorem pauseConsistent_openConsumer (position : TopicPartition → ℤ) :
    PauseConsistent (s.openConsumer cfg position).operator
      ↔ ∀ tp ∈ cfg.assignments, s.operator.reportsPaused tp = false := by
  have hreports : ∀ tp, (s.openConsumer cfg position).operator.reportsPaused tp
      = s.operator.reportsPaused tp := by
    intro tp
    unfold openConsumer reportsPaused
    dsimp only
    split <;> rfl
  show ∅ = cfg.assignments.filter (fun tp =>
    (s.openConsumer cfg position).operator.reportsPaused tp) ↔ _
  simp only [hreports]
  rw [eq_comm, Finset.filter_eq_empty_iff]
  simp

/-- A look at the assignment pauses nothing. -/
theorem aligned_syncAssignment : Aligned s.operator s.syncAssignment.operator :=
  ⟨⟨rfl, rfl⟩, rfl, rfl, rfl⟩

/-- **Seeks** move positions, and leave every pause where it is. -/
theorem aligned_finishSeekToOffsets (offsets : OffsetMap) :
    Aligned s.operator (s.finishSeekToOffsets offsets).operator := by
  rcases finishSeekToOffsets_cases s offsets with heq | ⟨operator, hsought, heq⟩
  · rw [heq]
    exact refl_of Aligned _
  · rw [heq]
    exact hsought.aligned

theorem aligned_beginSeek (partitions : Option (Finset TopicPartition)) :
    Aligned s.operator (s.beginSeek partitions).operator := by
  rcases beginSeek_cases s partitions with heq | ⟨targets, heq⟩ <;> rw [heq] <;>
    exact refl_of Aligned _

/-- **One step keeps the law just when it should.** -/
theorem step_pauseConsistent (hattached : s.operator.Attached) (hs : PauseConsistent s.operator)
    (h : s.step cfg retry e = some t) :
    t.operator.Attached ∧ (PauseConsistent t.operator ↔ KeepsPause cfg s e) := by
  have haligned : ∀ {o : Operator}, Aligned s.operator o → KeepsPause cfg s e →
      o.Attached ∧ (PauseConsistent o ↔ KeepsPause cfg s e) :=
    fun ho hk => ⟨ho.attached hattached, iff_of_true (ho.pauseConsistent hs) hk⟩
  have hsame : KeepsPause cfg s e →
      s.operator.Attached ∧ (PauseConsistent s.operator ↔ KeepsPause cfg s e) :=
    haligned (refl_of Aligned _)
  -- a start seeks and polls, which changes no pause
  have hbooted : ∀ {u v : Source}, Bootstraps u v → u.operator.Attached →
      PauseConsistent v.operator → KeepsPause cfg s e →
      v.operator.Attached ∧ (PauseConsistent v.operator ↔ KeepsPause cfg s e) :=
    fun hv hu hc hk => ⟨hv.steady.attached hu, iff_of_true hc hk⟩
  have hlost : ∀ {ps : Finset TopicPartition}, s.operator.opened = false →
      s.operator.consumer.assignment \ ps = ∅ := fun hopened => by
    rw [hattached hopened, Finset.empty_sdiff]
  have hclosed : s.consumerClosed.operator.Attached ∧ PauseConsistent s.consumerClosed.operator :=
    ⟨fun _ => rfl, pauseConsistent_of_unassigned rfl rfl⟩
  cases step_reacts h with
  | idles he h =>
    rw [h.books]
    exact hsame (keepsPause_of_isQuiet he)
  | opensPoisonSink | closesPoisonSink | resumes | checkpoints | goesOn | transacts
  | captureFails | commits | commitsNow => exact hsame trivial
  | emits he => exact hsame (by rcases he with rfl | rfl <;> trivial)
  | errs he _ _ _ _ _ hu h =>
    rw [h.books, hu]
    exact hsame (keepsPause_of_isQuiet he)
  | passesOver | acknowledges | captures =>
    simp only [operator_acknowledgeDelivery, operator_poisonCaptured]
    exact hsame trivial
  | drops he _ _ _ hu =>
    rw [operator_poisonCaptured]
    rcases hu with rfl | rfl <;> exact hsame (keepsPause_of_isQuiet he)
  | asks he => exact hsame (keepsPause_of_isQuiet he)
  -- a new consumer has nothing paused
  | opens =>
    exact ⟨nofun, pauseConsistent_openConsumer _⟩
  | closes => exact ⟨hclosed.1, iff_of_true hclosed.2 trivial⟩
  | starts =>
    exact hbooted (bootstraps_startStream s) hattached (pauseConsistent_startStream hs) trivial
  | @refreshes _ u _ hprobe =>
    obtain ⟨fs, hfs, _⟩ := probe_fetches hprobe
    have hu := aligned_of_fetches hfs
    exact hbooted (bootstraps_applyInitialPositioning _).of_sync (hu.attached hattached)
      (pauseConsistent_applyInitialPositioning
        (pauseConsistent_syncAssignment (hu.pauseConsistent hs))) trivial
  | @positions _ u _ hprobe =>
    obtain ⟨fs, hfs, _⟩ := probe_fetches hprobe
    have hu := aligned_of_fetches hfs
    exact hbooted (bootstraps_seekAndStart _).of_sync (hu.attached hattached)
      (pauseConsistent_seekAndStart
        (pauseConsistent_syncAssignment (hu.pauseConsistent hs))) trivial
  | @receives _ _ messages u _ hfetch hne =>
    have hu := aligned_of_fetches (fetchAll_fetches hfetch)
    rw [receive_of_ne_nil hne]
    exact haligned ⟨⟨hu.opened, hu.assignment⟩, hu.paused, hu.pausedPartitions,
      hu.pauseAllRequested⟩ trivial
  | @committed i c => 
    rcases commitReturns_cases ((s.dropCommit i).recordCommit c.request) c.caller with
      hb | ⟨ps, _, hb⟩ | ⟨_, hb⟩ <;> rw [hb]
    · exact hsame trivial
    · exact ⟨hlost, iff_of_true (pauseConsistent_dropRevoked ps hs) trivial⟩
    · exact ⟨hclosed.1, iff_of_true hclosed.2 trivial⟩
  | @commitFailed i c =>
    rcases commitRaises_cases (s.dropCommit i) c.caller with hb | ⟨ps, _, hb⟩ | ⟨_, hb⟩ <;> rw [hb]
    · exact hsame trivial
    · exact ⟨hlost, iff_of_true (pauseConsistent_partitionsLost ps hs) trivial⟩
    · exact ⟨hclosed.1, iff_of_true hclosed.2 trivial⟩
  | revokes => exact ⟨hlost, iff_of_true (pauseConsistent_dropRevoked _ hs) trivial⟩
  | @assigns ps position hopened =>
    refine ⟨fun hclosed => ?_, iff_of_true (pauseConsistent_assigned hs hopened ps position) trivial⟩
    have hunmoved := unmoved_handlePartitionsAssigned ps
      { s.operator with consumer := s.operator.consumer.assign ps position }
    rw [show (s.partitionsAssigned ps position).operator.opened = s.operator.opened from
      hunmoved.finalState.opened, hopened] at hclosed
    cases hclosed
  | @pauses partitions =>
    have hunmoved := (unmoved_pause partitions s.operator).finalState
    exact ⟨hunmoved.attached hattached,
      iff_of_true (pauseConsistent_pause hs hattached partitions) trivial⟩
  | @unpauses partitions =>
    have hunmoved := (unmoved_resume partitions s.operator).finalState
    refine ⟨hunmoved.attached hattached, ?_⟩
    cases partitions with
    | none => exact pauseConsistent_resume_none hs hattached
    | some targets => exact pauseConsistent_resume_some hs hattached targets
  | beginsSeek he =>
    exact haligned (trans_of Aligned aligned_syncAssignment (aligned_beginSeek _))
      (keepsPause_of_isQuiet he)
  | seeks =>
    exact haligned (trans_of Aligned aligned_syncAssignment (aligned_finishSeekToOffsets _)) trivial
  | @probesForSeek i _ _ u _ hprobe =>
    obtain ⟨fs, hfs, _⟩ := probe_fetches hprobe
    have hu : Aligned s.operator u.syncAssignment.operator :=
      trans_of Aligned (aligned_of_fetches hfs) aligned_syncAssignment
    exact haligned (trans_of Aligned hu (aligned_finishSeekToOffsets _)) trivial
  | @probesToBeginSeek i _ _ u _ hprobe =>
    obtain ⟨fs, hfs, _⟩ := probe_fetches hprobe
    have hu : Aligned s.operator u.syncAssignment.operator :=
      trans_of Aligned (aligned_of_fetches hfs) aligned_syncAssignment
    exact haligned (trans_of Aligned hu (aligned_beginSeek _)) trivial
  | seeked | seekFailed => exact haligned ⟨⟨rfl, rfl⟩, rfl, rfl, rfl⟩ trivial

/-- **The consumer pauses what the source reports paused, throughout exactly the
runs** in which no argument-less `resume` meets partitions paused without a
name, no empty list is resumed while something is paused, and no session opens
on partitions still reported paused. -/
theorem pauseConsistent_iff_keepsPause (cfg : SourceConfig)
    (retry : KafkaSink.RetryAsync DLQRecord) (es : List Event) :
    AllStates (step cfg retry) (fun s => PauseConsistent s.operator) (Source.new cfg) es
      ↔ AllSteps (step cfg retry) (fun s e _ => KeepsPause cfg s e) (Source.new cfg) es :=
  allStates_iff_allSteps (fun _ _ _ hattached hs h => step_pauseConsistent hattached hs h)
    (fun _ => rfl) (pauseConsistent_of_unassigned rfl rfl) es

/-- A source that is paused as a whole, assigned a partition, and resumed. -/
def pausedBeforeAssigned : List Event :=
  [.open (fun _ => 0), .assigned {⟨"events", 0⟩} (fun _ => 0), .pause none,
    .assigned {⟨"events", 1⟩} (fun _ => 0), .resume none]

/-- **A partition paused before it was assigned** is reported as paused, and is not. -/
theorem not_pauseConsistent :
    ¬ AllStates (step {} (KafkaSink.RetryAsync.upTo DLQRecord 1))
      (fun s => PauseConsistent s.operator) (Source.new {}) pausedBeforeAssigned := by
  decide

end Source

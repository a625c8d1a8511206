import AgoraPlugins.Effect
import AgoraPlugins.Kafka.Cursor
import AgoraPlugins.Kafka.Message
import Mathlib.Data.Finset.Basic

/-!
# Operator controls and the consumer they drive

An operator may pause partitions and resume them, all at once or by name, and
may seek. `KafkaOperatorController` remembers what was asked: a set of paused
partitions, and a flag that says that everything is to be paused, including
what is assigned later. The consumer knows nothing of that flag; it has a set
of paused partitions of its own, and forgets a partition's when the partition
is taken away.

The consumer is aiokafka's, and only what the source uses of it is here: what
is assigned, from where each partition is read on, and what is paused. It
refuses to seek, pause or resume a partition it has not been assigned; a call
about several of them takes one after the other, so what comes before the first
that it refuses has been paused or resumed. What it returns from a poll it does
not return again.
-/

/-- **The consumer**: its assignment, the position of each partition, and the
partitions it does not fetch from. -/
structure Consumer where
  assignment : Finset TopicPartition := ∅
  position : TopicPartition → ℤ := fun _ => 0
  paused : Finset TopicPartition := ∅

namespace Consumer

/-- A partition is read on from `offset`. -/
def moveTo (c : Consumer) (tp : TopicPartition) (offset : ℤ) : Consumer :=
  { c with position := fun tp' => if tp' = tp then offset else c.position tp' }

/-- `ps` are assigned, to be read from `position`. What is assigned anew is not
paused. -/
def assign (c : Consumer) (ps : Finset TopicPartition) (position : TopicPartition → ℤ) :
    Consumer where
  assignment := c.assignment ∪ ps
  position tp := if tp ∈ ps then position tp else c.position tp
  paused := c.paused \ ps

/-- `ps` are taken away. -/
def revoke (c : Consumer) (ps : Finset TopicPartition) : Consumer :=
  { c with assignment := c.assignment \ ps, paused := c.paused \ ps }

/-- The next message of a partition, from an assigned one that is not paused and
not before its position; the position moves past it. -/
def fetch (c : Consumer) (tp : TopicPartition) (offset : ℤ) : Option Consumer :=
  if tp ∈ c.assignment ∧ tp ∉ c.paused ∧ c.position tp ≤ offset then
    some (c.moveTo tp (offset + 1))
  else none

/-- **What a call reaches** of the partitions it is handed, which it takes in
their order: those that have nothing unassigned before them. -/
def reached (c : Consumer) (targets : Finset TopicPartition) : Finset TopicPartition :=
  targets.filter (fun tp => ∀ tp' ∈ targets, tp'.le tp → tp' ∈ c.assignment)

/-- A call comes to some of its targets. -/
theorem reached_subset (c : Consumer) (targets : Finset TopicPartition) :
    c.reached targets ⊆ targets :=
  Finset.filter_subset _ _

theorem mem_assignment_of_reached {c : Consumer} {targets : Finset TopicPartition}
    {tp : TopicPartition} (h : tp ∈ c.reached targets) : tp ∈ c.assignment := by
  obtain ⟨hmem, hbefore⟩ := Finset.mem_filter.1 h
  exact hbefore tp hmem (TopicPartition.le_refl tp)

/-- Partitions that are all assigned are all reached. -/
theorem reached_of_subset {c : Consumer} {targets : Finset TopicPartition}
    (h : targets ⊆ c.assignment) : c.reached targets = targets :=
  Finset.filter_true_of_mem (fun _ _ _ hmem _ => h hmem)

end Consumer

/-- **`KafkaOperatorController`**: what the source takes for its assignment, and
what is to be paused. -/
structure Controls where
  activeAssignment : Finset TopicPartition := ∅
  pausedPartitions : Finset TopicPartition := ∅
  pauseAllRequested : Bool := false

/-- What is left paused by name once `targets` are resumed: everything active
but these, if everything was paused. -/
def Controls.resumed (c : Controls) (targets : Finset TopicPartition) : Controls :=
  if c.pauseAllRequested then
    { c with
      pauseAllRequested := false
      pausedPartitions := (c.activeAssignment \ targets) \ targets }
  else { c with pausedPartitions := c.pausedPartitions \ targets }

/-- What the revoked callback forgets. -/
def Controls.dropRevoked (c : Controls) (revoked : Finset TopicPartition) : Controls :=
  { c with
    pausedPartitions := c.pausedPartitions \ revoked
    activeAssignment := c.activeAssignment \ revoked }

/-- The controls with the consumer they drive, which there is while the source
is open. -/
structure Operator where
  opened : Bool := false
  controls : Controls := {}
  consumer : Consumer := {}

/-- What the operator calls do. -/
abbrev OperatorM (α : Type) := EStateM Exc Operator α

open Effect

namespace Operator

def modifyControls (f : Controls → Controls) : OperatorM PUnit :=
  modify (fun s => { s with controls := f s.controls })

def modifyConsumer (f : Consumer → Consumer) : OperatorM PUnit :=
  modify (fun s => { s with consumer := f s.consumer })

/-! ## What the consumer refuses -/

/-- The consumer refuses partitions that are not all assigned. -/
def requireAssigned (targets : Finset TopicPartition) : OperatorM PUnit := do
  if targets ⊆ (← get).consumer.assignment then pure ⟨⟩
  else throw (.exception "IllegalStateError" "No current assignment for partition")

/-- `pause(*targets)` of the consumer: what it reaches is paused, whether it then raises or not. -/
def consumerPause (targets : Finset TopicPartition) : OperatorM PUnit := do
  modifyConsumer (fun c => { c with paused := c.paused ∪ c.reached targets })
  requireAssigned targets

/-- **`resume` of the consumer**, partition after partition up to one that is not assigned. -/
def consumerResume (targets : Finset TopicPartition) : OperatorM PUnit := do
  modifyConsumer (fun c => { c with paused := c.paused \ c.reached targets })
  requireAssigned targets

/-- **`seek` of the consumer**, for a partition that is assigned. -/
def consumerSeek (tp : TopicPartition) (offset : ℤ) : OperatorM PUnit := do
  requireAssigned {tp}
  modifyConsumer (fun c => c.moveTo tp offset)

/-! ## The controller -/

def syncActiveAssignment (assignments : Finset TopicPartition) : OperatorM PUnit :=
  modifyControls (fun c => { c with activeAssignment := assignments })

/-- The controller takes over what the consumer, if there is one, says is
assigned. -/
def syncAssignmentFromConsumer : OperatorM PUnit := do
  let s ← get
  if s.opened then syncActiveAssignment s.consumer.assignment else pure ⟨⟩

/-- Operator calls reach assigned partitions only. -/
def validateAssignedPartitions (targets : Finset TopicPartition) : OperatorM PUnit := do
  if targets ⊆ (← get).controls.activeAssignment then pure ⟨⟩
  else throw (.exception "ValueError"
    "KafkaSource operator controls can only target assigned partitions.")

/-- The partitions a call is about, or all that are active. -/
def resolveSeekTargets (partitions : Option (Finset TopicPartition)) :
    OperatorM (Finset TopicPartition) := do
  match partitions with
  | none =>
    let s ← get
    if s.controls.activeAssignment = ∅ then
      throw (.exception "RuntimeError"
        "KafkaSource has no active assignment yet, so operator seek controls cannot resolve target partitions.")
    else pure s.controls.activeAssignment
  | some targets => do
    validateAssignedPartitions targets
    pure targets

/-- A set of targets as an argument: an empty one is passed on as `None`. -/
def orNone (targets : Finset TopicPartition) : Option (Finset TopicPartition) :=
  if targets = ∅ then none else some targets

/-- What `apply_pause_state` pauses: everything active, or what was paused by
name; of that, what the call is about, if it names anything. -/
def pauseTargets (c : Controls) (partitions : Option (Finset TopicPartition)) :
    Finset TopicPartition :=
  let targets := if c.pauseAllRequested then c.activeAssignment else c.pausedPartitions
  match partitions with
  | none => targets
  | some requested => if requested = ∅ then targets else targets ∩ requested

/-- **`_apply_pause_state`.** -/
def applyPauseState (partitions : Option (Finset TopicPartition)) : OperatorM PUnit := do
  let s ← get
  if s.opened && pauseTargets s.controls partitions ≠ ∅ then
    consumerPause (pauseTargets s.controls partitions)
  else pure ⟨⟩

/-- What `apply_resume_state` resumes: what it is told, or everything active. -/
def resumeTargets (c : Controls) (partitions : Option (Finset TopicPartition)) :
    Finset TopicPartition :=
  partitions.getD c.activeAssignment

/-- **`_apply_resume_state`.** -/
def applyResumeState (partitions : Option (Finset TopicPartition)) : OperatorM PUnit := do
  let s ← get
  if s.opened && resumeTargets s.controls partitions ≠ ∅ then
    consumerResume (resumeTargets s.controls partitions)
  else pure ⟨⟩

/-! ## The operator's calls -/

/-- **Pausing**, by name or, with `None`, everything there is and will be. -/
def pause (partitions : Option (Finset TopicPartition)) : OperatorM PUnit := do
  syncAssignmentFromConsumer
  match partitions with
  | none => do
    let targets := (← get).controls.activeAssignment
    modifyControls (fun c => { c with
      pauseAllRequested := true
      pausedPartitions := c.pausedPartitions ∪ targets })
    applyPauseState (orNone targets)
  | some targets => do
    validateAssignedPartitions targets
    modifyControls (fun c => { c with pausedPartitions := c.pausedPartitions ∪ targets })
    applyPauseState (orNone targets)

/-- **Resuming**, by name or, with `None`, everything: what is paused by name
if anything is, and the whole assignment otherwise. -/
def resume (partitions : Option (Finset TopicPartition)) : OperatorM PUnit := do
  syncAssignmentFromConsumer
  match partitions with
  | none => do
    let c := (← get).controls
    let targets := if c.pausedPartitions ≠ ∅ then c.pausedPartitions else c.activeAssignment
    modifyControls (fun c => { c with pauseAllRequested := false, pausedPartitions := ∅ })
    applyResumeState (orNone targets)
  | some targets => do
    validateAssignedPartitions targets
    modifyControls (fun c => c.resumed targets)
    applyResumeState (orNone targets)

/-! ## Rebalances -/

/-- The assigned callback: the partitions are there, and what of them is to be
paused is paused. -/
def handlePartitionsAssigned (partitions : Finset TopicPartition) : OperatorM PUnit := do
  syncActiveAssignment partitions
  applyPauseState (some partitions)

/-! ## What the calls leave alone -/

/-- The consumer is open and assigned as before. -/
structure Steady (s t : Operator) : Prop where
  opened : t.opened = s.opened
  assignment : t.consumer.assignment = s.consumer.assignment

/-- **Nothing has been sought**: the positions stand as well. -/
structure Unmoved (s t : Operator) : Prop extends Steady s t where
  position : t.consumer.position = s.consumer.position

/-- **Something may have been sought**, and nothing else has changed. -/
structure Sought (s t : Operator) : Prop extends Steady s t where
  controls : t.controls = s.controls
  paused : t.consumer.paused = s.consumer.paused

instance : IsPreorder Operator Steady where
  refl _ := ⟨rfl, rfl⟩
  trans _ _ _ h h' := ⟨h'.opened.trans h.opened, h'.assignment.trans h.assignment⟩

instance : IsPreorder Operator Unmoved where
  refl _ := ⟨⟨rfl, rfl⟩, rfl⟩
  trans _ _ _ h h' := ⟨trans_of Steady h.toSteady h'.toSteady, h'.position.trans h.position⟩

instance : IsPreorder Operator Sought where
  refl _ := ⟨⟨rfl, rfl⟩, rfl, rfl⟩
  trans _ _ _ h h' := ⟨trans_of Steady h.toSteady h'.toSteady, h'.controls.trans h.controls,
    h'.paused.trans h.paused⟩

section

variable {R : Operator → Operator → Prop} [IsPreorder Operator R]

/-- A check changes nothing. -/
theorem respects_requireAssigned (targets : Finset TopicPartition) :
    Respects R (requireAssigned targets) := by
  unfold requireAssigned
  refine respects_get.bind (fun s => ?_)
  split
  · exact respects_pure _
  · exact respects_throw _

/-- A check of the targets changes nothing. -/
theorem respects_validateAssignedPartitions (targets : Finset TopicPartition) :
    Respects R (validateAssignedPartitions targets) := by
  unfold validateAssignedPartitions
  refine respects_get.bind (fun s => ?_)
  split
  · exact respects_pure _
  · exact respects_throw _

end

theorem unmoved_modifyControls (f : Controls → Controls) : Respects Unmoved (modifyControls f) :=
  respects_modify (fun _ => ⟨⟨rfl, rfl⟩, rfl⟩)

theorem unmoved_consumerPause (targets : Finset TopicPartition) :
    Respects Unmoved (consumerPause targets) :=
  (respects_modify (fun _ => ⟨⟨rfl, rfl⟩, rfl⟩)).bind (fun _ => respects_requireAssigned targets)

theorem unmoved_consumerResume (targets : Finset TopicPartition) :
    Respects Unmoved (consumerResume targets) :=
  (respects_modify (fun _ => ⟨⟨rfl, rfl⟩, rfl⟩)).bind (fun _ => respects_requireAssigned targets)

/-- **A seek** moves positions only. -/
theorem sought_consumerSeek (tp : TopicPartition) (offset : ℤ) :
    Respects Sought (consumerSeek tp offset) :=
  (respects_requireAssigned {tp}).bind
    (fun _ => respects_modify (fun _ => ⟨⟨rfl, rfl⟩, rfl, rfl⟩))

/-- A look at the assignment moves none. -/
theorem unmoved_syncAssignmentFromConsumer : Respects Unmoved syncAssignmentFromConsumer := by
  unfold syncAssignmentFromConsumer
  refine respects_get.bind (fun s => ?_)
  split
  · exact unmoved_modifyControls _
  · exact respects_pure _

theorem unmoved_applyPauseState (partitions : Option (Finset TopicPartition)) :
    Respects Unmoved (applyPauseState partitions) := by
  unfold applyPauseState
  refine respects_get.bind (fun s => ?_)
  split
  · exact unmoved_consumerPause _
  · exact respects_pure _

theorem unmoved_applyResumeState (partitions : Option (Finset TopicPartition)) :
    Respects Unmoved (applyResumeState partitions) := by
  unfold applyResumeState
  refine respects_get.bind (fun s => ?_)
  split
  · exact unmoved_consumerResume _
  · exact respects_pure _

/-- **`pause`** moves no position. -/
theorem unmoved_pause (partitions : Option (Finset TopicPartition)) :
    Respects Unmoved (pause partitions) := by
  unfold pause
  refine unmoved_syncAssignmentFromConsumer.bind (fun _ => ?_)
  cases partitions with
  | none =>
    exact respects_get.bind (fun _ => (unmoved_modifyControls _).bind
      (fun _ => unmoved_applyPauseState _))
  | some targets =>
    exact (respects_validateAssignedPartitions targets).bind
      (fun _ => (unmoved_modifyControls _).bind (fun _ => unmoved_applyPauseState _))

/-- **Nor does `resume`.** -/
theorem unmoved_resume (partitions : Option (Finset TopicPartition)) :
    Respects Unmoved (resume partitions) := by
  unfold resume
  refine unmoved_syncAssignmentFromConsumer.bind (fun _ => ?_)
  cases partitions with
  | none =>
    exact respects_get.bind (fun _ => (unmoved_modifyControls _).bind
      (fun _ => unmoved_applyResumeState _))
  | some targets =>
    exact (respects_validateAssignedPartitions targets).bind
      (fun _ => (unmoved_modifyControls _).bind (fun _ => unmoved_applyResumeState _))

theorem unmoved_handlePartitionsAssigned (partitions : Finset TopicPartition) :
    Respects Unmoved (handlePartitionsAssigned partitions) :=
  (unmoved_modifyControls _).bind (fun _ => unmoved_applyPauseState _)

end Operator

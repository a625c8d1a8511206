import AgoraPlugins.Kafka.SourceSteps

/-!
# Where a resumed stream begins

A source that is resumed from a checkpoint has, for some partitions, the offset
it had processed last. When a stream starts, the consumer is sought to the
offset after it, in each of these partitions that is assigned at that moment. A
partition that is not is left out, with a warning: it is read from wherever its
group stands once it is assigned.

So of a partition that was assigned when the stream was positioned, nothing is
handed out again that the checkpoint covers, until something else moves the
consumer there: a new assignment of the partition, an operator's seek in it, a
new stream. That bound is carried through the run by what the consumer and the
batch still hold of the partition (`Beyond`).
-/

open Machine Effect

namespace Operator

/-! ## The seeks to the targets -/

/-- A partition is read on from where it was. -/
def Holds (tp : TopicPartition) (s t : Operator) : Prop :=
  t.consumer.position tp = s.consumer.position tp

instance (tp : TopicPartition) : IsPreorder Operator (Holds tp) where
  refl _ := rfl
  trans _ _ _ h h' := Eq.trans h' h

variable {tp tp' : TopicPartition} {offset : ℤ}

theorem holds_consumerSeek (h : tp ≠ tp') : Respects (Holds tp) (consumerSeek tp' offset) :=
  (respects_requireAssigned {tp'}).bind (fun _ => respects_modify (fun _ => if_neg h))

/-- The seek of an assigned partition moves the consumer there. -/
theorem ensures_consumerSeek {s : Operator} (h : tp ∈ s.consumer.assignment) :
    Ensures (consumerSeek tp offset) s (fun _ t => t.consumer.position tp = offset) := by
  unfold consumerSeek requireAssigned
  simp [h, modifyConsumer, Consumer.moveTo]

end Operator

namespace Source

variable {cfg : SourceConfig} {retry : KafkaSink.RetryAsync DLQRecord} {s t u : Source}
  {e : Event} {tp : TopicPartition} {offset : ℤ}

open Operator

theorem holds_seekTarget {assigned : Finset TopicPartition} {exact : Bool}
    {target : Σ _ : TopicPartition, ℤ} (h : tp ≠ target.1) :
    Respects (Holds tp) (seekTarget assigned exact target) := by
  unfold seekTarget
  split
  · exact respects_pure _
  · exact holds_consumerSeek h

theorem ensures_seekTarget {o : Operator} {exact : Bool} {target : Σ _ : TopicPartition, ℤ}
    (h : target.1 ∈ o.consumer.assignment) :
    Ensures (seekTarget o.consumer.assignment exact target) o
      (fun _ t => t.consumer.position target.1 = targetPosition exact target.2) := by
  unfold seekTarget
  rw [if_neg (fun hskip => hskip.2 h)]
  exact ensures_consumerSeek h

/-- **The loop over the targets.** If it does not raise, every assigned target is
where it was to be: the other seeks are of other partitions. -/
theorem ensures_forM_seekTarget {exact : Bool} {targets : List (Σ _ : TopicPartition, ℤ)}
    (hnodup : targets.NodupKeys) (o : Operator) :
    Ensures (targets.forM (seekTarget o.consumer.assignment exact)) o (fun r t => r = .ok ⟨⟩ →
      ∀ target ∈ targets, target.1 ∈ o.consumer.assignment →
        t.consumer.position target.1 = targetPosition exact target.2) := by
  induction targets generalizing o with
  | nil => exact fun _ target htarget => nomatch htarget
  | cons target targets ih =>
    rw [List.nodupKeys_cons] at hnodup
    obtain ⟨hnot, hnodup⟩ := hnodup
    show Ensures (seekTarget o.consumer.assignment exact target >>= fun _ => _) o _
    -- what the first seek does, to its own partition and to the rest
    have hfirst : Ensures (seekTarget o.consumer.assignment exact target) o (fun _ u =>
        (target.1 ∈ o.consumer.assignment →
          u.consumer.position target.1 = targetPosition exact target.2) ∧ o.Sought u) := by
      by_cases hassigned : target.1 ∈ o.consumer.assignment
      · refine ((ensures_seekTarget hassigned).and (sought_seekTarget _ exact target o)).mono ?_
        exact fun _ _ h => ⟨fun _ => h.1, h.2⟩
      · refine (sought_seekTarget _ exact target o).mono ?_
        exact fun _ _ h => ⟨fun hmem => absurd hmem hassigned, h⟩
    refine hfirst.bind (fun _ u hu => ?_) (fun _ _ _ => nofun)
    obtain ⟨hposition, hsought⟩ := hu
    have hrest : Respects (Holds target.1)
        (targets.forM (seekTarget o.consumer.assignment exact)) := by
      refine respects_forM_of_mem (fun other hother => holds_seekTarget (fun heq => ?_))
      exact hnot (heq ▸ List.mem_keys_of_mem hother)
    have hih := ih hnodup u
    rw [hsought.assignment] at hih
    refine (hih.and (hrest u)).mono (fun r t ht hr => ?_)
    obtain ⟨hall, hholds⟩ := ht
    intro other hother hassigned
    rcases List.mem_cons.1 hother with rfl | hother
    · exact (show t.consumer.position other.1 = _ from hholds).trans (hposition hassigned)
    · exact hall hr other hother hassigned

/-- **After the seeks**, an assigned target is where it was to be. -/
theorem position_seekTargets {targets : OffsetMap} {exact : Bool} {o : Operator}
    (hassigned : tp ∈ o.consumer.assignment) (htarget : targets.lookup tp = some offset)
    (hraises : raises (seekTargets targets exact) o = false) :
    (finalState (seekTargets targets exact) o).consumer.position tp
      = targetPosition exact offset := by
  have hmem : (⟨tp, offset⟩ : Σ _ : TopicPartition, ℤ) ∈ targets.entries :=
    (List.mem_dlookup_iff targets.nodupKeys).1 htarget
  have hloop : Ensures (seekTargets targets exact) o (fun r t => r = .ok ⟨⟩ →
      ∀ target ∈ targets.entries, target.1 ∈ o.consumer.assignment →
        t.consumer.position target.1 = targetPosition exact target.2) := by
    unfold seekTargets
    rw [ensures_bind]
    exact ensures_forM_seekTarget targets.nodupKeys o
  obtain ⟨_, h⟩ := hloop.finalState_of_raises hraises
  exact h rfl ⟨tp, offset⟩ hmem hassigned

/-! ## The start of a stream -/

/-- **A step in which a stream is positioned** and begins to poll: it has just
been started, or has had the answer of a probe. -/
def Positions (s : Source) (e : Event) (t : Source) : Prop :=
  (e = .stream ∨ s.cursor.positioningApplied = false ∧ ∃ message, e = .probed message)
    ∧ t.pc = .polling 0

/-- The poll loop begins where the targets were sought to. -/
theorem position_startPolling : s.startPolling.operator.consumer.position tp
    = s.operator.consumer.position tp := by
  have hunmoved := ((unmoved_applyPauseState none) s.operator).finalState
  unfold startPolling
  split <;> exact congrFun hunmoved.position tp

theorem position_seekAndStart (hassigned : tp ∈ s.operator.consumer.assignment)
    (htarget : s.cursor.positioningTargets.lookup tp = some offset)
    (hpc : s.seekAndStart.pc = .polling 0) :
    s.seekAndStart.operator.consumer.position tp
      = targetPosition s.cursor.hasExactStartOffsets offset := by
  unfold seekAndStart at hpc ⊢
  dsimp only at hpc ⊢
  split
  · rename_i hraises
    rw [if_pos hraises] at hpc
    cases hpc
  · rename_i hraises
    rw [position_startPolling]
    exact position_seekTargets hassigned htarget (Bool.not_eq_true _ ▸ hraises)

theorem position_applyInitialPositioning (happlied : s.cursor.positioningApplied = false)
    (hassigned : tp ∈ s.operator.consumer.assignment)
    (htarget : s.cursor.positioningTargets.lookup tp = some offset)
    (hpc : s.applyInitialPositioning.pc = .polling 0) :
    s.applyInitialPositioning.operator.consumer.position tp
      = targetPosition s.cursor.hasExactStartOffsets offset := by
  have hne : s.cursor.positioningTargets.entries ≠ [] := by
    intro hempty
    rw [lookup_of_entries_eq_nil hempty] at htarget
    cases htarget
  unfold applyInitialPositioning at hpc ⊢
  rw [if_neg (by rw [happlied]; exact Bool.false_ne_true), if_neg hne] at hpc ⊢
  split
  · rename_i hall
    rw [if_pos hall] at hpc
    exact position_seekAndStart hassigned htarget hpc
  · rename_i hall
    rw [if_neg hall] at hpc
    cases hpc

/-- What the stream is positioned by, if it resumes. -/
theorem positioningTargets_of_resumes {c : CursorState} (h : c.startOffsets.entries = []) :
    c.positioningTargets = c.resumeOffsets ∧ c.hasExactStartOffsets = false := by
  unfold CursorState.positioningTargets CursorState.hasExactStartOffsets
  rw [h]
  exact ⟨rfl, rfl⟩

/-- **A stream that resumes reads on past the checkpoint** in each partition that
is assigned when it is positioned. -/
theorem position_of_positions (h : s.step cfg retry e = some t) (hpositions : Positions s e t)
    (hassigned : tp ∈ t.operator.consumer.assignment) (hexact : t.cursor.startOffsets.entries = [])
    (hsaved : t.cursor.resumeOffsets.lookup tp = some offset) :
    t.operator.consumer.position tp = offset + 1 := by
  obtain ⟨hevent, hpc⟩ := hpositions
  -- what is known of the bootstrapped state was so of the one it began with
  have hback : ∀ {u : Source}, Bootstraps u t → tp ∈ u.operator.consumer.assignment
      ∧ u.cursor.positioningTargets.lookup tp = some offset
      ∧ u.cursor.hasExactStartOffsets = false := by
    intro u hu
    rw [hu.books] at hexact hsaved
    obtain ⟨htargets, hno⟩ := positioningTargets_of_resumes (c := u.cursor) hexact
    rw [hu.steady.assignment] at hassigned
    exact ⟨hassigned, htargets ▸ hsaved, hno⟩
  -- the seeks go to the offset after the saved one
  have hgo : ∀ {u : Source}, Bootstraps u t → t = u.applyInitialPositioning →
      u.cursor.positioningApplied = false → t.operator.consumer.position tp = offset + 1 := by
    intro u hu heq happlied
    obtain ⟨hassigned, htarget, hno⟩ := hback hu
    have hposition := position_applyInitialPositioning happlied hassigned htarget (heq ▸ hpc)
    rw [heq, hposition, hno]
    rfl
  have hquiet : e.isQuiet = true → t.operator.consumer.position tp = offset + 1 := by
    intro he
    rcases hevent with rfl | ⟨_, _, rfl⟩ <;> cases he
  cases step_reacts h with
  | idles he => exact hquiet he
  | errs he => exact hquiet he
  | drops he => exact hquiet he
  | asks he => exact hquiet he
  | beginsSeek he => exact hquiet he
  | emits he => rcases hevent with rfl | ⟨_, _, rfl⟩ <;> rcases he with he | he <;> cases he
  | starts =>
    have hstart : s.startStream = s.resetForStream.syncAssignment.applyInitialPositioning := by
      unfold startStream at hpc ⊢
      dsimp only at hpc ⊢
      split
      · rename_i hempty
        rw [if_pos hempty] at hpc
        cases hpc
      · rfl
    exact hgo (hstart ▸ bootstraps_applyInitialPositioning _) hstart rfl
  | @refreshes message u _ hprobe =>
    obtain ⟨happlied, _⟩ : s.cursor.positioningApplied = false ∧ _ := by
      rcases hevent with heq | heq
      · cases heq
      · exact heq
    obtain ⟨fs, hfs, _⟩ := probe_fetches hprobe
    have happlied : u.syncAssignment.cursor.positioningApplied = false := by
      show u.cursor.positioningApplied = false
      rw [hfs.eq]
      exact happlied
    exact hgo (bootstraps_applyInitialPositioning _) rfl happlied
  | @positions message u _ hprobe =>
    obtain ⟨hassigned, htarget, hno⟩ := hback (bootstraps_seekAndStart u.syncAssignment)
    rw [position_seekAndStart hassigned htarget hpc, hno]
    rfl
  | _ => rcases hevent with heq | ⟨_, _, heq⟩ <;> cases heq

/-! ## The rest of the run -/

/-- **Whether a partition is read from elsewhere after an event**: a session or a
stream starts, the partition is assigned anew, or an operator seeks in it. -/
def Repositions (tp : TopicPartition) (s : Source) : Event → Prop
  | .open _ | .stream | .probed _ => True
  | .assigned ps _ => tp ∈ ps
  | .seekToOffsets offsets => tp ∈ offsets.keys
  | .operatorProbed i _ =>
    match s.calls[i]? with
    | some (.seekToOffsets offsets) => tp ∈ offsets.keys
    | _ => False
  | .seeked i _ =>
    match s.calls[i]? with
    | some (.seeking targets) => tp ∈ targets
    | _ => False
  | .seekFailed i moved _ =>
    match s.calls[i]? with
    | some (.seeking targets) => tp ∈ targets ∩ moved
    | _ => False
  | _ => False

instance (s : Source) (e : Event) : Decidable (Repositions tp s e) := by
  unfold Repositions
  split
  all_goals first
  | infer_instance
  | split <;> infer_instance

/-- The messages that have been handed out after the first `n`. -/
def handedSince (b : Books) (n : ℕ) : List Fetched :=
  (b.deliveries.map Delivery.message).drop n

/-- **Everything of the partition is at an offset or beyond**: what the consumer
would return next, what the batch holds, and what has been handed out after the
first `n` deliveries. -/
structure Beyond (tp : TopicPartition) (offset : ℤ) (n : ℕ) (b : Books) : Prop where
  position : tp ∈ b.operator.consumer.assignment → offset ≤ b.operator.consumer.position tp
  batch : ∀ f ∈ b.batch, f.tp = tp → offset ≤ f.offset
  length : n ≤ b.deliveries.length
  handed : ∀ f ∈ handedSince b n, f.tp = tp → offset ≤ f.offset

/-- **The partition is read on**, if it is read at all, and nothing is handed
out. -/
structure Onward (tp : TopicPartition) (b b' : Books) : Prop where
  position : tp ∈ b'.operator.consumer.assignment → tp ∈ b.operator.consumer.assignment
    ∧ b.operator.consumer.position tp ≤ b'.operator.consumer.position tp
  batch : b'.batch ⊆ b.batch
  deliveries : b'.deliveries.map Delivery.message = b.deliveries.map Delivery.message

variable {n : ℕ} {b b' : Books}

theorem Onward.beyond (h : Onward tp b b') (hb : Beyond tp offset n b) :
    Beyond tp offset n b' where
  position hassigned := by
    obtain ⟨hassigned, hle⟩ := h.position hassigned
    exact Int.le_trans (hb.position hassigned) hle
  batch f hf := hb.batch f (h.batch hf)
  length := by
    have hlength := congrArg List.length h.deliveries
    rw [List.length_map, List.length_map] at hlength
    rw [hlength]
    exact hb.length
  handed := by
    unfold handedSince
    rw [h.deliveries]
    exact hb.handed

/-- The consumer, the batch and the messages handed out are as they were. -/
theorem Onward.of_eq (hconsumer : b'.operator.consumer = b.operator.consumer)
    (hbatch : b'.batch ⊆ b.batch) (hdeliveries : b'.deliveries = b.deliveries) :
    Onward tp b b' where
  position hassigned := by
    rw [hconsumer] at hassigned ⊢
    exact ⟨hassigned, Int.le_refl _⟩
  batch := hbatch
  deliveries := by rw [hdeliveries]

/-- An operator call that leaves the position of the partition. -/
theorem Onward.of_steady (hsteady : b.operator.Steady b'.operator)
    (hholds : Holds tp b.operator b'.operator) (hbatch : b'.batch = b.batch)
    (hdeliveries : b'.deliveries = b.deliveries) : Onward tp b b' where
  position hassigned := by
    rw [hsteady.assignment] at hassigned
    exact ⟨hassigned, Int.le_of_eq (Eq.symm hholds)⟩
  batch := by
    rw [hbatch]
    exact List.Subset.refl _
  deliveries := by rw [hdeliveries]

/-- Partitions go. -/
theorem Onward.of_lost (ps : Finset TopicPartition)
    (hconsumer : b'.operator.consumer = b.operator.consumer.revoke ps)
    (hbatch : b'.batch = b.batch) (hdeliveries : b'.deliveries = b.deliveries) :
    Onward tp b b' where
  position hassigned := by
    rw [hconsumer] at hassigned ⊢
    exact ⟨(Finset.mem_sdiff.1 hassigned).1, Int.le_refl _⟩
  batch := by
    rw [hbatch]
    exact List.Subset.refl _
  deliveries := by rw [hdeliveries]

/-- The consumer is dropped: nothing is assigned. -/
theorem Onward.of_closed (hconsumer : b'.operator.consumer.assignment = ∅)
    (hbatch : b'.batch = b.batch) (hdeliveries : b'.deliveries = b.deliveries) :
    Onward tp b b' where
  position hassigned := by
    rw [hconsumer] at hassigned
    exact absurd hassigned (Finset.notMem_empty tp)
  batch := by
    rw [hbatch]
    exact List.Subset.refl _
  deliveries := by rw [hdeliveries]

theorem onward_of_fetches {fs : List Fetched} (h : Fetches s fs t) :
    Onward tp s.toBooks t.toBooks := by
  have hposition := h.position tp
  rw [h.eq] at hposition ⊢
  exact ⟨fun hassigned => ⟨hassigned, hposition⟩, List.Subset.refl _, rfl⟩

theorem onward_syncAssignment (s : Source) : Onward tp s.toBooks s.syncAssignment.toBooks :=
  .of_eq rfl (List.Subset.refl _) rfl

theorem onward_finishSeekToOffsets {offsets : OffsetMap} (h : tp ∉ offsets.keys) :
    Onward tp s.toBooks (s.finishSeekToOffsets offsets).toBooks := by
  let seeks : OperatorM PUnit := offsets.entries.forM (fun e => consumerSeek e.1 e.2)
  have hholds : Respects (Holds tp) seeks := by
    refine respects_forM_of_mem (fun e he => holds_consumerSeek (fun heq => h ?_))
    exact heq ▸ List.mem_keys_of_mem he
  have hsought : Respects Sought seeks :=
    respects_forM_of_mem (fun e _ => sought_consumerSeek e.1 e.2)
  unfold finishSeekToOffsets
  split
  · exact .of_eq rfl (List.Subset.refl _) rfl
  · exact .of_steady (hsought s.operator).finalState.toSteady (hholds s.operator).finalState
      rfl rfl

theorem onward_beginSeek (s : Source) (partitions : Option (Finset TopicPartition)) :
    Onward tp s.toBooks (s.beginSeek partitions).toBooks := by
  rcases beginSeek_cases s partitions with heq | ⟨_, heq⟩ <;> rw [heq] <;>
    exact .of_eq rfl (List.Subset.refl _) rfl

theorem onward_poisonCaptured (s : Source) (cfg : SourceConfig) :
    Onward tp s.toBooks (s.poisonCaptured cfg).toBooks := by
  unfold poisonCaptured
  dsimp only
  split
  · rw [toBooks_callCommit, dropMessages_eq]
    exact .of_eq rfl (List.drop_subset _ _) rfl
  · exact .of_eq rfl (List.drop_subset _ _) rfl

/-- **One step goes on from there**, unless it has the partition read from
elsewhere. -/
theorem beyond_step (hs : Beyond tp offset n s.toBooks) (hg : ¬ Repositions tp s e)
    (h : s.step cfg retry e = some t) : Beyond tp offset n t.toBooks := by
  -- what only moves on stays beyond the offset
  have hon : ∀ {b : Books}, Onward tp s.toBooks b → Beyond tp offset n b := fun hb => hb.beyond hs
  have hrefl : ∀ bs : List Fetched, bs ⊆ bs := List.Subset.refl
  cases step_reacts h with
  | idles _ h =>
    rw [h.books]
    exact hs
  | errs _ _ _ _ _ _ hbooks h =>
    rw [h.books, hbooks]
    exact hon (.of_eq rfl (hrefl _) rfl)
  -- these have the partition read from elsewhere
  | opens | starts | refreshes | positions => exact absurd trivial hg
  | closes => exact hon (.of_closed rfl rfl rfl)
  | @receives _ idlePolls messages u _ hfetch hne =>
    have hfs := fetchAll_fetches hfetch
    have hu : Beyond tp offset n u.toBooks := hon (onward_of_fetches hfs)
    rw [receive_of_ne_nil hne]
    refine ⟨hu.position, fun f hf htp => ?_, hu.length, hu.handed⟩
    have hassigned : tp ∈ s.operator.consumer.assignment := htp ▸ hfs.assigned f hf
    have hle := (hfs.bounds f hf).1
    rw [htp] at hle
    exact Int.le_trans (hs.position hassigned) hle
  | @emits _ f rest _ _ _ hbatch =>
    have hrest : ∀ g ∈ rest, g ∈ s.batch := by
      rw [hbatch]
      exact fun g => List.mem_cons_of_mem f
    refine ⟨hs.position, fun g hg htp => hs.batch g (hrest g hg) htp, ?_, fun g hg htp => ?_⟩
    · show n ≤ (s.deliveries ++ [Delivery.mk f false]).length
      rw [List.length_append]
      exact Nat.le_add_right_of_le hs.length
    · have hg : g ∈ ((s.deliveries ++ [Delivery.mk f false]).map Delivery.message).drop n := hg
      have hn : n ≤ (s.deliveries.map Delivery.message).length := by
        rw [List.length_map]
        exact hs.length
      rw [List.map_append, List.drop_append_of_le_length hn, List.mem_append] at hg
      rcases hg with hg | hg
      · exact hs.handed g hg htp
      · rw [List.mem_singleton.1 hg] at htp ⊢
        exact hs.batch f (by rw [hbatch]; exact List.mem_cons_self) htp
  | @passesOver i d _ _ hd _ =>
    rw [toBooks_acknowledgeDelivery]
    refine hon ?_
    exact ⟨fun ha => ⟨ha, Int.le_refl _⟩, hrefl _, messages_set hd⟩
  | @acknowledges i d _ hd _ =>
    rw [toBooks_acknowledgeDelivery]
    refine hon ?_
    exact ⟨fun ha => ⟨ha, Int.le_refl _⟩, hrefl _, messages_set hd⟩
  | transacts hd => exact hon ⟨fun ha => ⟨ha, Int.le_refl _⟩, hrefl _, messages_set hd⟩
  | captures =>
    refine (onward_poisonCaptured _ cfg).beyond ?_
    exact hon (.of_eq rfl (hrefl _) rfl)
  | drops _ _ _ _ hu =>
    refine (onward_poisonCaptured _ cfg).beyond ?_
    rcases hu with rfl | rfl <;> exact hon (.of_eq rfl (hrefl _) rfl)
  | @committed i c _ hc =>
    rcases commitReturns_cases ((s.dropCommit i).recordCommit c.request) c.caller with
      hb | ⟨ps, _, hb⟩ | ⟨_, hb⟩ <;> rw [hb]
    · exact hon (.of_eq rfl (hrefl _) rfl)
    · exact hon (.of_lost ps rfl rfl rfl)
    · exact hon (.of_closed rfl rfl rfl)
  | @commitFailed i c _ hc =>
    rcases commitRaises_cases (s.dropCommit i) c.caller with hb | ⟨ps, _, hb⟩ | ⟨_, hb⟩ <;> rw [hb]
    · exact hon (.of_eq rfl (hrefl _) rfl)
    · exact hon (.of_lost ps rfl rfl rfl)
    · exact hon (.of_closed rfl rfl rfl)
  | @revokes ps => exact hon (.of_lost ps rfl rfl rfl)
  | @assigns ps position =>
    have hunmoved := ((unmoved_handlePartitionsAssigned ps)
      { s.operator with consumer := s.operator.consumer.assign ps position }).finalState
    refine hon ⟨fun ha => ?_, hrefl _, rfl⟩
    have ha : tp ∈ (s.partitionsAssigned ps position).operator.consumer.assignment := ha
    rw [show (s.partitionsAssigned ps position).operator.consumer.assignment
      = s.operator.consumer.assignment ∪ ps from hunmoved.assignment, Finset.mem_union] at ha
    have hnot : tp ∉ ps := hg
    refine ⟨ha.resolve_right hnot, Int.le_of_eq ?_⟩
    have hposition : (s.partitionsAssigned ps position).operator.consumer.position tp
        = if tp ∈ ps then position tp else s.operator.consumer.position tp :=
      congrFun hunmoved.position tp
    rw [if_neg hnot] at hposition
    exact hposition.symm
  | @pauses partitions =>
    have hunmoved := ((unmoved_pause partitions) s.operator).finalState
    exact hon (.of_steady hunmoved.toSteady (congrFun hunmoved.position tp) rfl rfl)
  | @unpauses partitions =>
    have hunmoved := ((unmoved_resume partitions) s.operator).finalState
    exact hon (.of_steady hunmoved.toSteady (congrFun hunmoved.position tp) rfl rfl)
  | beginsSeek =>
    exact (onward_beginSeek _ _).beyond (hon (onward_syncAssignment s))
  | seeks => exact (onward_finishSeekToOffsets hg).beyond (hon (onward_syncAssignment s))
  | @probesForSeek i _ offsets u hcall hprobe =>
    have hnot : tp ∉ offsets.keys := by
      simp only [Repositions, hcall] at hg
      exact hg
    obtain ⟨fs, hfs, _⟩ := probe_fetches hprobe
    have hdrop : Beyond tp offset n (s.dropCall i).toBooks := hon (.of_eq rfl (hrefl _) rfl)
    have hu := (onward_of_fetches hfs).beyond hdrop
    exact (onward_finishSeekToOffsets hnot).beyond ((onward_syncAssignment u).beyond hu)
  | @probesToBeginSeek i _ partitions u _ hprobe =>
    obtain ⟨fs, hfs, _⟩ := probe_fetches hprobe
    have hdrop : Beyond tp offset n (s.dropCall i).toBooks := hon (.of_eq rfl (hrefl _) rfl)
    have hu := (onward_of_fetches hfs).beyond hdrop
    exact (onward_beginSeek _ partitions).beyond ((onward_syncAssignment u).beyond hu)
  | @seeked i targets position hcall =>
    have hnot : tp ∉ targets := by
      simp only [Repositions, hcall] at hg
      exact hg
    refine hon ⟨fun ha => ⟨ha, Int.le_of_eq ?_⟩, hrefl _, rfl⟩
    show _ = if tp ∈ targets then position tp else s.operator.consumer.position tp
    rw [if_neg hnot]
  | @seekFailed i targets moved position hcall =>
    have hnot : tp ∉ targets ∩ moved := by
      simp only [Repositions, hcall] at hg
      exact hg
    refine hon ⟨fun ha => ⟨ha, Int.le_of_eq ?_⟩, hrefl _, rfl⟩
    show _ = if tp ∈ targets ∩ moved then position tp else s.operator.consumer.position tp
    rw [if_neg hnot]
  | _ => exact hon (.of_eq rfl (hrefl _) rfl)

/-- **A stream that has been positioned** has no batch and has handed nothing
out. -/
theorem beyond_of_positions {before : List Event}
    (hs : run (step cfg retry) (Source.new cfg) before = some s)
    (h : s.step cfg retry e = some t) (hpositions : Positions s e t)
    (hposition : t.operator.consumer.position tp = offset) :
    Beyond tp offset t.deliveries.length t.toBooks := by
  have hawaits : AllStates (step cfg retry) (fun s => s.pc.awaitsBatch = true → s.batch = [])
      (Source.new cfg) before := by
    refine allStates_of_invariant ?_ ?_ before
    · exact fun _ _ _ hs hstep => batch_of_awaitsBatch hs hstep
    · exact nofun
  have hbatch : t.batch = [] := by
    refine batch_of_awaitsBatch (hawaits.last hs) h ?_
    rw [hpositions.2]
    rfl
  refine ⟨fun _ => Int.le_of_eq hposition.symm, fun f hf => ?_, Nat.le_refl _, fun f hf => ?_⟩
  · rw [hbatch] at hf
    cases hf
  · unfold handedSince at hf
    rw [List.drop_of_length_le (by rw [List.length_map])] at hf
    cases hf

/-- **A resumed stream hands out nothing the checkpoint covers**, of a partition
that was assigned when the stream was positioned, until the partition is
assigned anew or sought or another stream starts. -/
theorem resumed_handsOut_beyond (cfg : SourceConfig) (retry : KafkaSink.RetryAsync DLQRecord)
    (checkpoint : Option SavedCheckpoint) {before after : List Event}
    (hs : run (step cfg retry) (Source.new cfg) before = some s)
    (h : s.step cfg retry e = some t) (hpositions : Positions s e t)
    (hassigned : tp ∈ t.operator.consumer.assignment)
    (hexact : t.cursor.startOffsets.entries = [])
    (hresumed : t.cursor.resumeOffsets = resumedOffsets checkpoint)
    {saved : ℤ} (hsaved : (resumedOffsets checkpoint).lookup tp = some saved)
    (hafter : AllSteps (step cfg retry) (fun s e _ => ¬ Repositions tp s e) t after) :
    AllStates (step cfg retry)
      (fun u => ∀ f ∈ handedSince u.toBooks t.deliveries.length, f.tp = tp → saved + 1 ≤ f.offset)
      t after := by
  have hstart : Beyond tp (saved + 1) t.deliveries.length t.toBooks := by
    refine beyond_of_positions hs h hpositions ?_
    exact position_of_positions h hpositions hassigned hexact (hresumed ▸ hsaved)
  have hall : AllStates (step cfg retry)
      (fun u => Beyond tp (saved + 1) t.deliveries.length u.toBooks) t after := by
    refine allStates_of_step (I := fun u => Beyond tp (saved + 1) t.deliveries.length u.toBooks)
      ?_ hstart hafter
    exact fun _ _ _ hu hg hstep => beyond_step hu hg hstep
  exact hall.mono (fun u hu => hu.handed)

/-- A source is resumed from offset 41 of `events/0`, and has that partition when
its stream starts. -/
def assignedSource : Source :=
  (run (step {} (KafkaSink.RetryAsync.upTo DLQRecord 1)) (Source.new {})
    [.prepareResume (some ⟨some ⟨"events", 0, 41⟩, none⟩), .open (fun _ => 0),
      .assigned {⟨"events", 0⟩} (fun _ => 0)]).get rfl

def resumedStream : Source :=
  (step {} (KafkaSink.RetryAsync.upTo DLQRecord 1) assignedSource .stream).get rfl

/-- The stream hands out the record after the one that was saved. -/
theorem resumed_handsOut_beyond_42 :
    AllStates (step {} (KafkaSink.RetryAsync.upTo DLQRecord 1))
      (fun u => ∀ f ∈ handedSince u.toBooks resumedStream.deliveries.length,
        f.tp = ⟨"events", 0⟩ → 41 + 1 ≤ f.offset)
      resumedStream [.polled [{ tp := ⟨"events", 0⟩, offset := 42 }], .deserialized] := by
  refine resumed_handsOut_beyond {} (KafkaSink.RetryAsync.upTo DLQRecord 1)
    (some ⟨some ⟨"events", 0, 41⟩, none⟩) (s := assignedSource) (e := .stream)
    (Option.some_get _).symm (Option.some_get _).symm ⟨.inl rfl, rfl⟩ ?_ rfl rfl rfl ?_
  · decide
  · decide

/-- A source is resumed so with another partition assigned, and gets `events/0`
when its stream has started. -/
def resumedBeforeAssigned : List Event :=
  [.prepareResume (some ⟨some ⟨"events", 0, 41⟩, none⟩), .open (fun _ => 0),
    .assigned {⟨"events", 1⟩} (fun _ => 0), .stream, .probed none,
    .assigned {⟨"events", 0⟩} (fun _ => 0), .polled [{ tp := ⟨"events", 0⟩, offset := 0 }],
    .deserialized]

/-- The first record handed out of each partition a checkpoint names is past the
offset it has there. -/
def FirstPast (checkpoint : Option SavedCheckpoint) (s : Source) : Prop :=
  ∀ tp ∈ (resumedOffsets checkpoint).keys, ∀ saved ∈ (resumedOffsets checkpoint).lookup tp,
    ∀ f ∈ (handedSince s.toBooks 0).find? (fun f => f.tp = tp), saved + 1 ≤ f.offset

instance (checkpoint : Option SavedCheckpoint) : DecidablePred (FirstPast checkpoint) :=
  fun _ => inferInstanceAs (Decidable (∀ _ ∈ _, _))

/-- **The partition comes too late** to be sought, and is read from where the group is. -/
theorem not_firstPast :
    ¬ AllStates (step {} (KafkaSink.RetryAsync.upTo DLQRecord 1))
      (FirstPast (some ⟨some ⟨"events", 0, 41⟩, none⟩)) (Source.new {}) resumedBeforeAssigned := by
  decide

end Source

import AgoraPlugins.Kafka.SourceSteps

/-!
# Whose turn it is

The stream is one coroutine among several. When it awaits a commit it awaits that one, and does
nothing else meanwhile; so there is one commit of its own at most, and none when it is its turn
(`Alone`).

It is also left: the pipeline closes it or cancels it, its deserializer or the capture of poison
fails it, or a commit that it awaits does. Then its batch is gone with it (`holds_step`).
-/

open Machine

namespace Source

variable {cfg : SourceConfig} {retry : KafkaSink.RetryAsync DLQRecord} {s t u : Source}
  {e : Event}

/-! ## Whether the stream goes on -/

/-- A stream that has handed out a record is reading. -/
theorem reads_of_yielded {i : ℕ} (h : s.pc = .yielded i) : s.reads = true := by
  unfold reads
  rw [h, Bool.or_true]

/-- It is live, or its record is with the consumer. -/
theorem reads_cases (h : s.reads = true) : s.live = true ∨ ∃ i, s.pc = .yielded i := by
  unfold reads at h
  rcases Bool.or_eq_true_iff.1 h with h | h
  · exact .inl h
  · cases hpc : s.pc <;> rw [hpc] at h <;> first | exact .inr ⟨_, rfl⟩ | cases h

/-- A stream that reads after a step has been reading before it. -/
theorem reads_of (hlive : t.live = true → s.live = true)
    (hyields : ∀ i, t.pc = .yielded i → s.pc = .yielded i) (h : t.reads = true) :
    s.reads = true := by
  rcases reads_cases h with h | ⟨i, h⟩
  · exact reads_of_live (hlive h)
  · exact reads_of_yielded (hyields i h)

/-- A commit that is not the stream's is not that of a delivery. -/
theorem ne_deliver {commits : List CommitCall} (h : ∀ c ∈ commits, c.caller.isStream = false) :
    ∀ c ∈ commits, c.caller ≠ .deliver := by
  intro c hc hdeliver
  have hstream := h c hc
  rw [hdeliver] at hstream
  cases hstream

/-- The stream does not go on where it waits for no commit, and is not in its loop. -/
theorem live_eq_false (hcall : ∀ caller force, s.call = some (caller, force) → caller ≠ .deliver)
    (hcommits : ∀ c ∈ s.commits, c.caller ≠ .deliver) (hpc : s.pc.inLoop = false) :
    s.live = false := by
  unfold live
  rw [hpc, Bool.or_false, Bool.or_eq_false_iff]
  constructor
  · cases hc : s.call with
    | none => rfl
    | some c => exact decide_eq_false (hcall c.1 c.2 hc)
  · rw [List.any_eq_false]
    intro c hc hdeliver
    exact hcommits c hc (of_decide_eq_true hdeliver)

/-- A delivery that commits is one of a live stream. -/
theorem live_of_call {force : Bool} (h : s.call = some (.deliver, force)) : s.live = true := by
  unfold live
  rw [h]
  rfl

theorem live_of_commit {c : CommitCall} (hc : c ∈ s.commits) (hcaller : c.caller = .deliver) :
    s.live = true := by
  have hany : s.commits.any (fun c => c.caller = .deliver) = true :=
    List.any_eq_true.2 ⟨c, hc, decide_eq_true hcaller⟩
  unfold live
  rw [hany, Bool.or_true, Bool.true_or]

/-- A stream goes on because of a call, of a commit, or of where it is. -/
theorem live_of (hcall : ∀ force, t.call = some (.deliver, force) → s.live = true)
    (hcommits : ∀ c ∈ t.commits, c.caller = .deliver → s.live = true)
    (hpc : t.pc.inLoop = true → s.live = true) (h : t.live = true) : s.live = true := by
  unfold live at h
  rcases Bool.or_eq_true_iff.1 h with h | h
  · rcases Bool.or_eq_true_iff.1 h with h | h
    · cases hc : t.call with
      | none =>
        rw [hc] at h
        cases h
      | some c =>
        rw [hc] at h
        have hdeliver : c.1 = .deliver := of_decide_eq_true h
        exact hcall c.2 (by rw [hc, ← hdeliver])
    · obtain ⟨c, hc, hdeliver⟩ := List.any_eq_true.1 h
      exact hcommits c hc (of_decide_eq_true hdeliver)
  · exact hpc h

/-! ## The stream waits for one commit at a time -/

/-- **The stream waits for one commit at most**, and for none when it is its turn. -/
structure Alone (s : Source) : Prop where
  few : (s.commits.filter (fun c => c.caller.isStream)).length ≤ 1
  idle : s.onTurn → ∀ c ∈ s.commits, c.caller.isStream = false

/-- No commit is new, and it is the stream's turn only if it was. -/
theorem Alone.of_eq (hs : Alone s) (hcommits : t.commits = s.commits)
    (hturn : t.onTurn → s.onTurn) : Alone t where
  few := by
    rw [hcommits]
    exact hs.few
  idle ht := by
    rw [hcommits]
    exact hs.idle (hturn ht)

/-- Where no commit of the stream's is left, it may be the turn of any coroutine. -/
theorem Alone.of_none (h : ∀ c ∈ t.commits, c.caller.isStream = false) : Alone t where
  few := by
    have hnil : t.commits.filter (fun c => c.caller.isStream) = [] := by
      rw [List.filter_eq_nil_iff]
      intro c hc
      rw [h c hc]
      exact Bool.false_ne_true
    rw [hnil]
    exact Nat.zero_le _
  idle _ := h

/-- It is not the turn of the stream because another coroutine gets it. -/
theorem onTurn_of_eq (hpc : t.pc = s.pc)
    (hcall : ∀ caller force, t.call = some (caller, force) → caller.isStream = false)
    (ht : t.onTurn) : s.onTurn := by
  rcases ht with hne | ⟨caller, force, hc, hstream⟩
  · exact .inl (hpc ▸ hne)
  · rw [hcall caller force hc] at hstream
    cases hstream

/-- A commit is issued. -/
theorem Alone.issueCommit (hs : Alone s) {caller : Caller} (hcall : s.call = none)
    (hturn : caller.isStream = true → ∀ c ∈ s.commits, c.caller.isStream = false) :
    Alone (s.issueCommit caller) := by
  cases hstream : caller.isStream with
  | false =>
    have hpc : (s.issueCommit caller).pc = s.pc := by
      show (if caller.isStream then Pc.committing else s.pc) = s.pc
      rw [hstream]
      rfl
    have hback : (s.issueCommit caller).onTurn → s.onTurn := by
      refine onTurn_of_eq hpc (fun other force hc => ?_)
      have hc : s.call = some (other, force) := hc
      rw [hcall] at hc
      cases hc
    refine ⟨?_, fun ht c hc => ?_⟩
    · show ((s.commits ++ [_]).filter _).length ≤ 1
      rw [List.filter_append, List.filter_cons_of_neg (by rw [hstream]; exact Bool.false_ne_true),
        List.filter_nil, List.append_nil]
      exact hs.few
    · rcases List.mem_append.1 hc with hc | hc
      · exact hs.idle (hback ht) c hc
      · rw [List.mem_singleton.1 hc]
        exact hstream
  | true =>
    have hnone := hturn hstream
    refine ⟨?_, fun ht => ?_⟩
    · show ((s.commits ++ [_]).filter _).length ≤ 1
      rw [List.filter_append, (List.filter_eq_nil_iff.2 (fun c hc => by
        rw [hnone c hc]
        exact Bool.false_ne_true))]
      exact (List.length_filter_le _ _)
    · -- the stream waits for this one
      rcases ht with hne | ⟨other, force, hc, _⟩
      · refine absurd ?_ hne
        show (if caller.isStream then Pc.committing else s.pc) = .committing
        rw [hstream]
        rfl
      · have hc : s.call = some (other, force) := hc
        rw [hcall] at hc
        cases hc

/-- A commit is answered. -/
theorem Alone.answered (hs : Alone s) {i : ℕ} {c : CommitCall} (hc : s.commits[i]? = some c)
    (hcommits : t.commits = s.commits.eraseIdx i)
    (ht : c.caller.isStream = false → t.pc = s.pc ∧ t.call = none) : Alone t := by
  have hsublist : t.commits.Sublist s.commits := by
    rw [hcommits]
    exact List.eraseIdx_sublist _ _
  cases hstream : c.caller.isStream with
  | false =>
    obtain ⟨hpc, hnone⟩ := ht hstream
    refine ⟨((hsublist.filter _).length_le).trans hs.few, fun hturn d hd => ?_⟩
    refine hs.idle (onTurn_of_eq hpc (fun caller force hsome => ?_) hturn) d (hsublist.subset hd)
    rw [hnone] at hsome
    cases hsome
  | true =>
    refine .of_none (fun d hd => ?_)
    by_contra hne
    rw [hcommits] at hd
    obtain ⟨hlt, rfl⟩ := List.getElem?_eq_some_iff.1 hc
    -- this one and the other one would be two
    have hperm := (List.getElem_cons_eraseIdx_perm hlt).filter (fun c => c.caller.isStream)
    have hlength := hperm.length_eq
    rw [List.filter_cons, if_pos hstream, List.length_cons] at hlength
    have hpos : 0 < ((s.commits.eraseIdx i).filter (fun c => c.caller.isStream)).length := by
      refine List.length_pos_of_mem (a := d) (List.mem_filter.2 ⟨hd, ?_⟩)
      rwa [Bool.not_eq_false] at hne
    have hfew := hs.few
    omega

/-- An acknowledgement sends no commit. -/
theorem commits_acknowledgeDelivery (i : ℕ) (d : Delivery) (caller : Caller) :
    (s.acknowledgeDelivery cfg i d caller).commits = s.commits := by
  rw [toBooks_acknowledgeDelivery]
  rfl

/-- It is the stream's turn while a record is with the consumer. -/
theorem onTurn_of_inHand {i : ℕ} (h : s.pc = .yielded i) : s.onTurn := by
  refine .inl ?_
  rw [h]
  exact nofun

theorem onTurn_of_idle (h : s.pc = .idle ∨ s.pc = .ended) : s.onTurn := by
  refine .inl ?_
  rcases h with h | h <;> rw [h] <;> exact nofun

/-- An acknowledgement by the pipeline leaves the stream where it is. -/
theorem acknowledge_aside (i : ℕ) (d : Delivery) (hcall : s.call = none) :
    (s.acknowledgeDelivery cfg i d .acknowledge).pc = s.pc
      ∧ ∀ caller force, (s.acknowledgeDelivery cfg i d .acknowledge).call = some (caller, force) →
        caller = .acknowledge := by
  unfold acknowledgeDelivery callCommit
  split
  · refine ⟨rfl, fun caller force hc => ?_⟩
    have hc : s.call = some (caller, force) := hc
    rw [hcall] at hc
    cases hc
  · refine ⟨rfl, fun caller force hc => ?_⟩
    cases hc
    rfl

/-- A commit of another coroutine's leaves the stream where it is. -/
theorem commitReturns_aside {caller : Caller} (h : caller.isStream = false) :
    (s.commitReturns caller).pc = s.pc ∧ (s.commitReturns caller).call = s.call := by
  cases caller <;> first | exact ⟨rfl, rfl⟩ | cases h

/-- A commit of somebody else that raises leaves the stream where it is. -/
theorem commitRaises_aside {caller : Caller} (h : caller.isStream = false) :
    (s.commitRaises caller).pc = s.pc ∧ (s.commitRaises caller).call = s.call := by
  cases caller <;> first | exact ⟨rfl, rfl⟩ | cases h

/-- **One step**: the stream still waits for one thing at most. -/
theorem alone_step (hs : Alone s) (h : s.step cfg retry e = some t) : Alone t := by
  -- most steps are the stream's own, and call no commit
  have hturns : s.onTurn → t.commits = s.commits → Alone t :=
    fun hturn hcommits => hs.of_eq hcommits (fun _ => hturn)
  cases step_reacts h with
  | idles _ h =>
    refine hs.of_eq (congrArg Books.commits h.books) (fun ht => ?_)
    rcases h.turn with hturn | ⟨hpc, hcall⟩
    · exact hturn
    · exact onTurn_of_eq hpc hcall ht
  | errs _ _ hpc _ _ _ hbooks h =>
    refine hturns (onTurn_of_inLoop (by rw [hpc]; rfl)) ?_
    rw [h.books, hbooks]
  | closes =>
    refine hs.of_eq rfl (onTurn_of_eq rfl ?_)
    rintro caller force ⟨⟩
  | starts _ hpc =>
    refine hturns (onTurn_of_idle hpc) ?_
    rw [(bootstraps_startStream s).books]
    rfl
  | @refreshes _ u hpc hprobe =>
    obtain ⟨fs, hfs, _⟩ := probe_fetches hprobe
    refine hturns (onTurn_of_inLoop (by rw [hpc]; rfl)) ?_
    rw [(bootstraps_applyInitialPositioning u.syncAssignment).books]
    show u.commits = s.commits
    rw [hfs.eq]
  | @positions _ u hpc hprobe =>
    obtain ⟨fs, hfs, _⟩ := probe_fetches hprobe
    refine hturns (onTurn_of_inLoop (by rw [hpc]; rfl)) ?_
    rw [(bootstraps_seekAndStart u.syncAssignment).books]
    show u.commits = s.commits
    rw [hfs.eq]
  | receives hpc hfetch hne =>
    have hfs := fetchAll_fetches hfetch
    refine hturns (onTurn_of_inLoop (by rw [hpc]; rfl)) ?_
    rw [receive_of_ne_nil hne]
    show _ = s.commits
    rw [hfs.eq]
  | emits _ _ hpc =>
    refine hturns (onTurn_of_inLoop ?_) rfl
    rcases hpc with hpc | hpc <;> rw [hpc] <;> rfl
  | goesOn _ hpc => exact hturns (onTurn_of_inHand hpc) rfl
  | passesOver _ hpc => exact hturns (onTurn_of_inHand hpc) (commits_acknowledgeDelivery _ _ _)
  -- somebody else acknowledges, and the stream stays where it is
  | @acknowledges i d hcall =>
    obtain ⟨hpc, hcaller⟩ := @acknowledge_aside cfg s i d hcall
    refine hs.of_eq (commits_acknowledgeDelivery _ _ _) (onTurn_of_eq hpc ?_)
    intro caller force hc
    rw [hcaller caller force hc]
    rfl
  | captures _ hpc =>
    refine hturns (onTurn_of_inLoop (by rw [hpc]; rfl)) ?_
    rw [commits_poisonCaptured]
    rfl
  | drops _ _ hpc _ hu =>
    refine hturns (onTurn_of_inLoop (by rw [hpc]; rfl)) ?_
    rw [commits_poisonCaptured]
    rcases hu with rfl | rfl <;> rfl
  | captureFails _ hpc => exact hturns (onTurn_of_inLoop (by rw [hpc]; rfl)) rfl
  | @commits caller force hcall =>
    have hu : Alone s.enterCall := by
      refine hs.of_eq rfl (onTurn_of_eq rfl ?_)
      rintro caller force ⟨⟩
    refine hu.issueCommit rfl (fun hstream => ?_)
    exact hs.idle (.inr ⟨caller, force, hcall, hstream⟩)
  | commitsNow hcall => exact hs.issueCommit hcall (fun h => by cases h)
  | @committed i c hcall hc =>
    refine hs.answered hc ?_ (fun hstream => ?_)
    · rw [commits_commitReturns]
      rfl
    · obtain ⟨hpc, hnone⟩ :=
        @commitReturns_aside ((s.dropCommit i).recordCommit c.request) _ hstream
      exact ⟨hpc, hnone.trans hcall⟩
  | @commitFailed i c hcall hc =>
    refine hs.answered hc ?_ (fun hstream => ?_)
    · rw [commits_commitRaises]
      rfl
    · obtain ⟨hpc, hnone⟩ := @commitRaises_aside (s.dropCommit i) _ hstream
      exact ⟨hpc, hnone.trans hcall⟩
  | revokes =>
    refine hs.of_eq rfl (onTurn_of_eq rfl ?_)
    rintro caller force ⟨⟩
  | beginsSeek =>
    rcases beginSeek_cases s.syncAssignment _ with heq | ⟨_, heq⟩ <;> rw [heq] <;>
      exact hs.of_eq rfl id
  | seeks =>
    rcases finishSeekToOffsets_cases s.syncAssignment _ with heq | ⟨_, _, heq⟩ <;> rw [heq] <;>
      exact hs.of_eq rfl id
  | @probesForSeek i _ offsets u _ hprobe =>
    obtain ⟨fs, hfs, _⟩ := probe_fetches hprobe
    have hu : Alone u := by
      rw [hfs.eq]
      exact hs.of_eq rfl id
    rcases finishSeekToOffsets_cases u.syncAssignment offsets with heq | ⟨_, _, heq⟩ <;>
      rw [heq] <;> exact hu.of_eq rfl id
  | @probesToBeginSeek i _ partitions u _ hprobe =>
    obtain ⟨fs, hfs, _⟩ := probe_fetches hprobe
    have hu : Alone u := by
      rw [hfs.eq]
      exact hs.of_eq rfl id
    rcases beginSeek_cases u.syncAssignment partitions with heq | ⟨_, heq⟩ <;> rw [heq] <;>
      exact hu.of_eq rfl id
  | _ => exact hs.of_eq rfl id


/-- Only the running coroutine's next step is taken while a commit is being called. -/
theorem call_eq_none_of_step (h : s.step cfg retry e = some t) (he : e ≠ .proceed) :
    s.call = none := by
  have hstep : (if s.busy then none else s.react cfg retry e) = some t := by
    cases e <;> first | exact absurd rfl he | exact h
  rw [Option.ite_none_left_eq_some, Bool.not_eq_true] at hstep
  have hbusy := hstep.1
  cases hc : s.call with
  | none => rfl
  | some c =>
    unfold busy at hbusy
    rw [hc] at hbusy
    cases hbusy

/-! ## The end of a stream -/

/-- **Whether an event, if it can happen, is the end of the stream** in the midst of its batch. -/
def leaves (cfg : SourceConfig) (retry : KafkaSink.RetryAsync DLQRecord) (s : Source) :
    Event → Bool
  | .closeStream | .interrupted => true
  | .malformed _ => !cfg.poison.policy.capturesRecords && !cfg.poison.policy.shouldContinue
  | .deserializedBatch count => count ≠ s.batch.length && !cfg.poison.policy.capturesRecords
    && !cfg.poison.policy.shouldContinue
  | .captured script =>
    match s.pc with
    | .capturing stage e => Effect.raises (s.capture cfg retry stage e) (s.withScript script)
      || !cfg.poison.policy.shouldContinue
    | _ => false
  | .commitFailed i => s.commits[i]?.any (fun c => c.caller = .deliver)
  | _ => false

/-- What is left of the batch once the poison at hand has been handled. -/
def afterPoison (s : Source) (cfg : SourceConfig) : List Fetched :=
  s.batch.drop (s.poisonMessages cfg).length

/-- **What a stream that is left by an event leaves behind**: the batch, without the poison that it
has handled. -/
def leaving (cfg : SourceConfig) (retry : KafkaSink.RetryAsync DLQRecord) (s : Source) :
    Event → List Fetched
  | .malformed _ | .deserializedBatch _ => s.afterPoison cfg
  | .captured script =>
    match s.pc with
    | .capturing stage e => if Effect.raises (s.capture cfg retry stage e) (s.withScript script)
      then s.batch else s.afterPoison cfg
    | _ => s.batch
  | _ => s.batch

/-- **A stream is left** by the events that leave it, and by no other. -/
theorem leaves_of_quiet (he : e.isQuiet = true) (hfails : e.failsBatch s.batch.length = false) :
    s.leaves cfg retry e = e.leavesStream
      ∧ (e.leavesStream = true → s.leaving cfg retry e = s.batch) := by
  cases e
  case malformed => cases hfails
  case deserializedBatch count =>
    have hcount : decide (count ≠ s.batch.length) = false := hfails
    refine ⟨?_, nofun⟩
    show (decide (count ≠ s.batch.length) && _ && _) = false
    rw [hcount]
    rfl
  all_goals first
    | exact ⟨rfl, fun _ => rfl⟩
    | exact ⟨rfl, nofun⟩
    | cases he

theorem leaves_of_operator (hpart : e.part = .operator) : s.leaves cfg retry e = false := by
  cases e <;> first | rfl | cases hpart

/-- The events by which the deserializer fails leave the stream if the policy stops it. -/
theorem leaves_of_fails (hfails : e.failsBatch s.batch.length = true) :
    s.leaves cfg retry e
        = (!cfg.poison.policy.capturesRecords && !cfg.poison.policy.shouldContinue)
      ∧ s.leaving cfg retry e = s.afterPoison cfg := by
  cases e
  case malformed => exact ⟨rfl, rfl⟩
  case deserializedBatch count =>
    have hcount : decide (count ≠ s.batch.length) = true := hfails
    refine ⟨?_, rfl⟩
    show (decide (count ≠ s.batch.length) && _ && _) = _
    rw [hcount, Bool.true_and]
  all_goals cases hfails

/-- A commit that is called unwinds nothing. -/
theorem unwinds_callCommit (h : s.call = none) :
    (s.callCommit cfg .deliver).unwinds = false := by
  unfold callCommit
  split
  · exact unwinds_of_none h
  · rfl

theorem calls_callCommit (h : s.call = none) : Calls (s.callCommit cfg .deliver) := by
  refine calls_of_aside (unwinds_callCommit h) (fun caller force hc hforces => ?_)
  unfold callCommit at hc
  split at hc
  · rw [show ({ s with pc := .advancing } : Source).call = none from h] at hc
    cases hc
  · cases hc
    cases hforces

theorem calls_poisonCaptured (h : s.call = none) : Calls (s.poisonCaptured cfg) := by
  unfold poisonCaptured
  dsimp only
  split
  · exact calls_callCommit (by rw [dropMessages_eq]; exact h)
  · exact calls_of_committing rfl (by rintro caller force ⟨⟩; rfl)

/-- **One step** keeps the calls as they should be. -/
theorem calls_step (hs : Calls s) (h : s.step cfg retry e = some t) : Calls t := by
  have hsame : ∀ {u : Source}, u.call = s.call → u.pc = s.pc → Calls u := by
    intro u hcall hpc
    refine ⟨fun hout => ?_, fun caller force hc => ?_⟩
    · unfold unwinds at hout
      rw [hcall] at hout
      exact hpc.trans (hs.out hout)
    · rw [hcall] at hc
      exact hs.forced caller force hc
  have hquiet : e ≠ .proceed → s.call = none := fun hne => call_eq_none_of_step h hne
  have hboot : ∀ {u v : Source}, Bootstraps u v → u.call = s.call → s.call = none →
      Calls v := fun hv hu hnone => calls_of_none (hv.call.trans (hu.trans hnone))
  have hfetched : ∀ {fs : List Fetched} {u : Source}, Fetches s fs u → u.call = s.call := by
    intro fs u hu
    rw [hu.eq]
  cases step_reacts h with
  | idles _ _ hturns => exact hturns.calls
  | errs _ _ _ _ _ _ _ _ _ hnone => exact calls_of_none hnone
  | closes | commits | revokes => exact calls_of_none rfl
  | starts => exact hboot (bootstraps_startStream s) rfl (hquiet nofun)
  | refreshes _ hprobe =>
    obtain ⟨fs, hfs, _⟩ := probe_fetches hprobe
    exact hboot (bootstraps_applyInitialPositioning _).of_sync (hfetched hfs) (hquiet nofun)
  | positions _ hprobe =>
    obtain ⟨fs, hfs, _⟩ := probe_fetches hprobe
    exact hboot (bootstraps_seekAndStart _).of_sync (hfetched hfs) (hquiet nofun)
  | receives _ hfetch hne =>
    rw [receive_of_ne_nil hne]
    exact calls_of_none ((hfetched (fetchAll_fetches hfetch)).trans (hquiet nofun))
  | emits _ hcall => exact calls_of_none hcall
  | goesOn hcall => exact calls_of_none hcall
  | passesOver hcall => exact calls_callCommit hcall
  | acknowledges hcall =>
    obtain ⟨_, hcaller⟩ := @acknowledge_aside cfg s _ _ hcall
    refine calls_of_aside ?_ (fun caller force hc hforces => ?_)
    · cases hc : (s.acknowledgeDelivery cfg _ _ .acknowledge).call with
      | none => exact unwinds_of_none hc
      | some c =>
        rw [unwinds, hc, Option.any_some, hcaller c.1 c.2 hc]
        rfl
    · rw [hcaller caller force hc] at hforces
      cases hforces
  | captures hcall => exact calls_poisonCaptured hcall
  | drops _ hcall _ _ hu =>
    rcases hu with rfl | rfl <;> exact calls_poisonCaptured hcall
  | captureFails => exact calls_of_committing rfl (by rintro caller force ⟨⟩; rfl)
  | @committed i c hcall =>
    cases hcaller : c.caller <;> first
      | exact calls_of_none hcall
      | exact calls_of_committing rfl (by rintro caller force ⟨⟩; rfl)
  | @commitFailed i c hcall =>
    cases hcaller : c.caller <;> first
      | exact calls_of_none hcall
      | exact calls_of_committing rfl (by rintro caller force ⟨⟩; rfl)
  | beginsSeek =>
    rcases beginSeek_cases s.syncAssignment _ with heq | ⟨_, heq⟩ <;> rw [heq] <;>
      exact hsame rfl rfl
  | seeks =>
    rcases finishSeekToOffsets_cases s.syncAssignment _ with heq | ⟨_, _, heq⟩ <;> rw [heq] <;>
      exact hsame rfl rfl
  | @probesForSeek _ _ offsets u _ hprobe =>
    obtain ⟨fs, hfs, _⟩ := probe_fetches hprobe
    rcases finishSeekToOffsets_cases u.syncAssignment offsets with heq | ⟨_, _, heq⟩ <;>
      rw [heq] <;> rw [hfs.eq] <;> exact hsame rfl rfl
  | @probesToBeginSeek _ _ partitions u _ hprobe =>
    obtain ⟨fs, hfs, _⟩ := probe_fetches hprobe
    rcases beginSeek_cases u.syncAssignment partitions with heq | ⟨_, heq⟩ <;>
      rw [heq] <;> rw [hfs.eq] <;> exact hsame rfl rfl
  | _ => exact hsame rfl rfl

/-- **A stream that has been left reads no more.** -/
theorem reads_of_left (hpc : s.pc = .idle ∨ s.pc = .committing ∨ s.pc = .ended)
    (hcall : ∀ caller force, s.call = some (caller, force) → caller ≠ .deliver)
    (hcommits : ∀ c ∈ s.commits, c.caller ≠ .deliver) : s.reads = false := by
  have hloop : s.pc.inLoop = false := by rcases hpc with hpc | hpc | hpc <;> rw [hpc] <;> rfl
  by_contra h
  rw [Bool.not_eq_false] at h
  rcases reads_cases h with h | ⟨i, h⟩
  · rw [live_eq_false hcall hcommits hloop] at h
    cases h
  · rcases hpc with hpc | hpc | hpc <;> rw [hpc] at h <;> cases h

/-- It goes on reading if it does so whatever it reads for. -/
theorem reads_keeps (hcall : ∀ force, s.call = some (.deliver, force) → t.reads = true)
    (hcommits : ∀ c ∈ s.commits, c.caller = .deliver → t.reads = true)
    (hpc : s.pc.inLoop = true → t.reads = true) (hyields : ∀ i, s.pc = .yielded i → t.reads = true)
    (h : s.reads = true) : t.reads = true := by
  rcases reads_cases h with h | ⟨i, h⟩
  · unfold live at h
    rcases Bool.or_eq_true_iff.1 h with h | h
    · rcases Bool.or_eq_true_iff.1 h with h | h
      · cases hc : s.call with
        | none =>
          rw [hc] at h
          cases h
        | some c =>
          rw [hc] at h
          have hdeliver : c.1 = .deliver := of_decide_eq_true h
          exact hcall c.2 (by rw [hc, ← hdeliver])
      · obtain ⟨c, hc, hdeliver⟩ := List.any_eq_true.1 h
        exact hcommits c hc (of_decide_eq_true hdeliver)
    · exact hpc h
  · exact hyields i h

/-- Another coroutine has its turn. -/
theorem reads_aside (hpc : t.pc = s.pc) (hcall : ∀ force, s.call ≠ some (.deliver, force))
    (hcommits : ∀ c ∈ s.commits, c.caller = .deliver → c ∈ t.commits) (h : s.reads = true) :
    t.reads = true := by
  refine reads_keeps (fun force hc => absurd hc (hcall force)) (fun c hc hdeliver => ?_)
    (fun hloop => ?_) (fun i hi => ?_) h
  · exact reads_of_live (live_of_commit (hcommits c hc hdeliver) hdeliver)
  · rw [← hpc] at hloop
    exact reads_of_inLoop hloop
  · exact reads_of_yielded (hpc.trans hi)

/-- A commit that is answered is the only one that goes. -/
theorem mem_dropCommit {i : ℕ} {c d : CommitCall} (hc : s.commits[i]? = some c)
    (hd : d ∈ s.commits) (hne : d ≠ c) : d ∈ (s.dropCommit i).commits := by
  obtain ⟨j, hj⟩ := List.mem_iff_getElem?.1 hd
  refine List.mem_eraseIdx_iff_getElem?.2 ⟨j, ?_, hj⟩
  rintro rfl
  rw [hj, Option.some.injEq] at hc
  exact hne hc

/-- The stream awaits no two commits. -/
theorem Alone.eq (hs : Alone s) {c d : CommitCall} (hc : c ∈ s.commits) (hd : d ∈ s.commits)
    (hstream : c.caller.isStream = true) (hstream' : d.caller.isStream = true) : c = d := by
  have hc' : c ∈ s.commits.filter (fun c => c.caller.isStream) := List.mem_filter.2 ⟨hc, hstream⟩
  have hd' : d ∈ s.commits.filter (fun c => c.caller.isStream) := List.mem_filter.2 ⟨hd, hstream'⟩
  have hfew := hs.few
  cases hl : s.commits.filter (fun c => c.caller.isStream) with
  | nil =>
    rw [hl] at hc'
    cases hc'
  | cons x xs =>
    rw [hl] at hc' hd' hfew
    obtain rfl : xs = [] := List.length_eq_zero_iff.1 (by rw [List.length_cons] at hfew; omega)
    rw [List.mem_singleton.1 hc', List.mem_singleton.1 hd']

/-- A stream that awaits a commit on its way out reads no more. -/
theorem Alone.reads_eq_false (hs : Alone s) (hcall : s.call = none) {c : CommitCall}
    (hc : c ∈ s.commits) (hout : c.caller = .handler ∨ c.caller = .final) : s.reads = false := by
  have hstream : c.caller.isStream = true := by rcases hout with h | h <;> rw [h] <;> rfl
  refine reads_of_left (.inr (.inl ?_)) (fun caller force h => ?_) (fun d hd hdeliver => ?_)
  · by_contra hpc
    have hnot := hs.idle (.inl hpc) c hc
    rw [hstream] at hnot
    cases hnot
  · rw [hcall] at h
    cases h
  · obtain rfl := hs.eq hc hd hstream (by rw [hdeliver]; rfl)
    rcases hout with h | h <;> rw [hdeliver] at h <;> cases h

/-- A stream that unwinds does not read. -/
theorem Calls.reads_eq_false (hs : Calls s) (halone : Alone s) (h : s.unwinds = true) :
    s.reads = false := by
  have hcall : ∃ caller force, s.call = some (caller, force)
      ∧ (caller = .handler ∨ caller = .final) := by
    unfold unwinds at h
    cases hc : s.call with
    | none =>
      rw [hc] at h
      cases h
    | some c =>
      rw [hc] at h
      exact ⟨c.1, c.2, rfl, by simpa using h⟩
  obtain ⟨caller, force, hc, hout⟩ := hcall
  refine reads_of_left (.inr (.inl (hs.out h))) (fun other force' hother => ?_) (ne_deliver (halone.idle
    (.inr ⟨caller, force, hc, by rcases hout with h | h <;> rw [h] <;> rfl⟩)))
  rw [hc] at hother
  cases hother
  rcases hout with rfl | rfl <;> exact nofun

/-- **Whether the batch is in hand**, if there is one. -/
def Holds (s : Source) : Prop := s.reads = true ∨ s.batch = []

/-- What is held does not change with the batch as it is. -/
theorem Holds.of_reads (hs : Holds s) (hbatch : t.batch = s.batch)
    (h : s.reads = true → t.reads = true) : Holds t :=
  hs.imp h (hbatch.trans ·)

/-- A stream that commits a delivery reads on after it. -/
theorem reads_callCommit : (s.callCommit cfg .deliver).reads = true := by
  unfold callCommit
  split
  · exact reads_of_inLoop rfl
  · exact reads_of_live (live_of_call rfl)

/-- The stream goes on after the capture of poison, unless the policy stops it. -/
theorem reads_poisonCaptured (hcommits : ∀ c ∈ s.commits, c.caller ≠ .deliver) :
    (s.poisonCaptured cfg).reads = cfg.poison.policy.shouldContinue
      ∧ (s.poisonCaptured cfg).batch = s.afterPoison cfg := by
  unfold poisonCaptured
  dsimp only
  cases cfg.poison.policy.shouldContinue with
  | true =>
    rw [if_pos rfl]
    refine ⟨reads_callCommit, ?_⟩
    rw [toBooks_callCommit, dropMessages_eq]
    rfl
  | false =>
    rw [if_neg Bool.false_ne_true]
    refine ⟨reads_of_left (.inr (.inl rfl)) ?_ hcommits, rfl⟩
    rintro caller force ⟨⟩
    exact nofun

/-- **The batch stays in hand just when the stream is not left in the midst of it.** -/
theorem holds_step (halone : Alone s) (hcalls : Calls s)
    (hawaits : s.pc.awaitsBatch = true → s.batch = []) (hs : Holds s)
    (h : s.step cfg retry e = some t) :
    Holds t ↔ (s.leaves cfg retry e = true → s.leaving cfg retry e = []) := by
  -- a stream that is left drops what it has in hand, and one that goes on keeps it
  have hleft : s.leaves cfg retry e = true → t.reads = false → t.batch = s.leaving cfg retry e →
      (Holds t ↔ (s.leaves cfg retry e = true → s.leaving cfg retry e = [])) := by
    intro hl hr hbatch
    unfold Holds
    rw [hl, hr, hbatch]
    simp
  have hgoes : s.leaves cfg retry e = false → Holds t →
      (Holds t ↔ (s.leaves cfg retry e = true → s.leaving cfg retry e = [])) := by
    intro hl ht
    rw [hl]
    exact iff_of_true ht nofun
  have hquiet : e ≠ .proceed → s.call = none := fun hne => call_eq_none_of_step h hne
  have hnone : s.call = none → ∀ force, s.call ≠ some (.deliver, force) := by
    intro hcall force
    rw [hcall]
    exact nofun
  have hloop : s.pc.inLoop = true → ∀ c ∈ s.commits, c.caller ≠ .deliver :=
    fun hin => ne_deliver (halone.idle (onTurn_of_inLoop hin))
  have hboot : ∀ {u v : Source}, Bootstraps u v → u.batch = [] → Holds v := by
    intro u v hv hu
    refine .inr ?_
    rw [hv.books]
    exact hu
  -- a capture ends the stream, or drops the poison and reads on, as the policy says
  have hpoison : ∀ {u : Source}, u.commits = s.commits → u.batch = s.batch →
      s.pc.inLoop = true → (u.poisonCaptured cfg).reads = cfg.poison.policy.shouldContinue
        ∧ (u.poisonCaptured cfg).batch = s.afterPoison cfg := by
    intro u hcommits hbatch hin
    have hu := @reads_poisonCaptured cfg u (by rw [hcommits]; exact hloop hin)
    have hafter : u.afterPoison cfg = s.afterPoison cfg := by
      unfold afterPoison poisonMessages
      rw [hbatch]
    exact ⟨hu.1, hu.2.trans hafter⟩
  have haside : ∀ caller : Caller, caller.isStream = false ∨ caller = .deliver
      ∨ caller = .handler ∨ caller = .final := by
    intro caller
    cases caller <;> simp [Caller.isStream]
  have hstays : ∀ {i : ℕ} {c : CommitCall}, s.commits[i]? = some c → c.caller.isStream = false →
      ∀ d ∈ s.commits, d.caller = .deliver → d ∈ (s.dropCommit i).commits := by
    intro i c hc hstream d hd hdeliver
    refine mem_dropCommit hc hd ?_
    rintro rfl
    rw [hdeliver] at hstream
    cases hstream
  -- by what the step does to the stream, not by the event
  cases step_reacts h with
  | idles he hidle hturns =>
    have hbatch : t.batch = s.batch := congrArg Books.batch hidle.books
    have hcommits : t.commits = s.commits := congrArg Books.commits hidle.books
    obtain ⟨hl, hleaving⟩ := @leaves_of_quiet cfg retry s e he hturns.fails
    cases hleaves : e.leavesStream with
    | true =>
      obtain ⟨hturn, hpc, hcall⟩ := hturns.leaves hleaves
      refine hleft (hl.trans hleaves) (reads_of_left (.inr hpc) hcall ?_) (hbatch.trans
        (hleaving hleaves).symm)
      rw [hcommits]
      exact ne_deliver (halone.idle hturn)
    | false =>
      refine hgoes (hl.trans hleaves) ?_
      rcases hs with hr | hempty
      · rcases hturns.stays hleaves hr with ht | hawait | hout
        · exact .inl ht
        · exact .inr (hbatch.trans (hawaits hawait))
        · rw [hcalls.reads_eq_false halone hout] at hr
          cases hr
      · exact .inr (hbatch.trans hempty)
  | errs _ _ _ _ hcaptures _ _ _ hreads _ hfails =>
    refine hgoes ?_ (.inl hreads)
    rw [(leaves_of_fails hfails).1, hcaptures]
    rfl
  | @drops _ u _ _ hpc hcaptures hu hfails =>
    obtain ⟨hl, hleaving⟩ := @leaves_of_fails cfg retry s _ hfails
    rw [hcaptures, Bool.not_false, Bool.true_and] at hl
    have hin : s.pc.inLoop = true := by rw [hpc]; rfl
    obtain ⟨hreads, hbatch⟩ : ((u.countErrors cfg).poisonCaptured cfg).reads
          = cfg.poison.policy.shouldContinue
        ∧ ((u.countErrors cfg).poisonCaptured cfg).batch = s.afterPoison cfg := by
      rcases hu with rfl | rfl <;> exact hpoison rfl rfl hin
    cases hcontinue : cfg.poison.policy.shouldContinue with
    | true => exact hgoes (by rw [hl, hcontinue]; rfl) (.inl (hreads.trans hcontinue))
    | false =>
      exact hleft (by rw [hl, hcontinue]; rfl) (hreads.trans hcontinue)
        (hbatch.trans hleaving.symm)
  | @captures script stage e _ hpc hraises =>
    have hl : s.leaves cfg retry (.captured script) = !cfg.poison.policy.shouldContinue := by
      simp only [leaves, hpc, hraises, Bool.false_or]
    have hleaving : s.leaving cfg retry (.captured script) = s.afterPoison cfg := by
      simp only [leaving, hpc, hraises, Bool.false_eq_true, if_false]
    obtain ⟨hreads, hbatch⟩ := @hpoison (s.runPoison script (s.capture cfg retry stage e)) rfl rfl
      (by rw [hpc]; rfl)
    cases hcontinue : cfg.poison.policy.shouldContinue with
    | true => exact hgoes (by rw [hl, hcontinue]; rfl) (.inl (hreads.trans hcontinue))
    | false =>
      exact hleft (by rw [hl, hcontinue]; rfl) (hreads.trans hcontinue)
        (hbatch.trans hleaving.symm)
  | @captureFails script stage e _ hpc hraises =>
    have hl : s.leaves cfg retry (.captured script) = true := by
      simp only [leaves, hpc, hraises, Bool.true_or]
    have hleaving : s.leaving cfg retry (.captured script) = s.batch := by
      simp only [leaving, hpc, hraises, if_true]
    refine hleft hl (reads_of_left (.inr (.inl rfl)) ?_ (hloop (by rw [hpc]; rfl))) hleaving.symm
    rintro caller force ⟨⟩
    exact nofun
  | closes hcall =>
    refine hgoes rfl (hs.of_reads rfl (reads_aside rfl (fun force => ?_) (fun c hc _ => hc)))
    rw [hcall]
    exact nofun
  | revokes hcall =>
    refine hgoes rfl (hs.of_reads rfl (reads_aside rfl (fun force => ?_) (fun c hc _ => hc)))
    rw [hcall]
    exact nofun
  | starts => exact hgoes rfl (hboot (bootstraps_startStream s) rfl)
  | @refreshes _ u hpc hprobe =>
    obtain ⟨fs, hfs, _⟩ := probe_fetches hprobe
    refine hgoes rfl (hboot (bootstraps_applyInitialPositioning _).of_sync ?_)
    rw [hfs.eq]
    exact hawaits (by rw [hpc]; rfl)
  | @positions _ u hpc hprobe =>
    obtain ⟨fs, hfs, _⟩ := probe_fetches hprobe
    refine hgoes rfl (hboot (bootstraps_seekAndStart _).of_sync ?_)
    rw [hfs.eq]
    exact hawaits (by rw [hpc]; rfl)
  | receives _ _ hne =>
    rw [receive_of_ne_nil hne] at hgoes ⊢
    exact hgoes rfl (.inl (reads_of_inLoop rfl))
  | emits he =>
    refine hgoes ?_ (.inl (reads_of_yielded rfl))
    rcases he with rfl | rfl <;> rfl
  | goesOn => exact hgoes rfl (.inl (reads_of_inLoop rfl))
  | passesOver => exact hgoes rfl (.inl reads_callCommit)
  | acknowledges hcall =>
    obtain ⟨hpc, hcaller⟩ := @acknowledge_aside cfg s _ _ hcall
    refine hgoes rfl (hs.of_reads (batch_acknowledgeDelivery _ _ _)
      (reads_aside hpc (hnone hcall) (fun c hc _ => ?_)))
    rw [commits_acknowledgeDelivery]
    exact hc
  | @commits caller force hcall =>
    refine hgoes rfl (hs.of_reads rfl (fun hr => ?_))
    cases hstream : caller.isStream with
    | false =>
      have hpc : (s.enterCall.issueCommit caller).pc = s.pc := by
        show (if caller.isStream then Pc.committing else s.pc) = s.pc
        rw [hstream]
        rfl
      refine reads_aside hpc (fun force' hdeliver => ?_)
        (fun c hc _ => List.mem_append_left _ hc) hr
      rw [hcall] at hdeliver
      cases hdeliver
      cases hstream
    | true =>
      have hout : caller ≠ .deliver → s.unwinds = true := by
        intro hne
        rw [unwinds, hcall]
        cases caller <;> first | rfl | exact absurd rfl hne | cases hstream
      by_cases hdeliver : caller = .deliver
      · subst hdeliver
        exact reads_of_live (live_of_commit (List.mem_append_right _ List.mem_cons_self) rfl)
      · rw [hcalls.reads_eq_false halone (hout hdeliver)] at hr
        cases hr
  | commitsNow hcall =>
    exact hgoes rfl (hs.of_reads rfl (reads_aside rfl (hnone hcall)
      (fun c hc _ => List.mem_append_left _ hc)))
  | @committed i c hcall hc =>
    refine hgoes rfl ?_
    rcases haside c.caller with hstream | hdeliver | hout
    · obtain ⟨hpc, _⟩ := @commitReturns_aside ((s.dropCommit i).recordCommit c.request) _ hstream
      refine hs.of_reads (batch_commitReturns _) (reads_aside hpc (hnone hcall) ?_)
      rw [commits_commitReturns]
      exact hstays hc hstream
    · rw [hdeliver]
      exact .inl (reads_of_inLoop rfl)
    · refine .inr ((batch_commitReturns _).trans (hs.resolve_left ?_))
      rw [halone.reads_eq_false hcall (List.mem_of_getElem? hc) hout]
      exact Bool.false_ne_true
  | @commitFailed i c hcall hc =>
    have hl : s.leaves cfg retry (.commitFailed i) = decide (c.caller = .deliver) := by
      simp only [leaves, hc, Option.any_some]
    rcases haside c.caller with hstream | hdeliver | hout
    · obtain ⟨hpc, _⟩ := @commitRaises_aside (s.dropCommit i) _ hstream
      refine hgoes ?_ (hs.of_reads (batch_commitRaises _) (reads_aside hpc (hnone hcall) ?_))
      · rw [hl]
        refine decide_eq_false (fun hdeliver => ?_)
        rw [hdeliver] at hstream
        cases hstream
      · rw [commits_commitRaises]
        exact hstays hc hstream
    · have ht := alone_step halone h
      rw [hdeliver] at hleft ht ⊢
      refine hleft (by rw [hl, hdeliver]; rfl) (reads_of_left (.inr (.inl rfl)) ?_ (ne_deliver
        (ht.idle (.inr ⟨.handler, true, rfl, rfl⟩)))) rfl
      rintro caller force ⟨⟩
      exact nofun
    · refine hgoes ?_ (.inr ((batch_commitRaises _).trans (hs.resolve_left ?_)))
      · rw [hl]
        rcases hout with hout | hout <;> rw [hout] <;> rfl
      · rw [halone.reads_eq_false hcall (List.mem_of_getElem? hc) hout]
        exact Bool.false_ne_true
  | asks he hpart => exact hgoes (leaves_of_operator hpart) (hs.of_reads rfl id)
  | beginsSeek he hpart =>
    refine hgoes (leaves_of_operator hpart) ?_
    rcases beginSeek_cases s.syncAssignment _ with heq | ⟨_, heq⟩ <;> rw [heq] <;>
      exact hs.of_reads rfl id
  | seeks =>
    rcases finishSeekToOffsets_cases s.syncAssignment _ with heq | ⟨_, _, heq⟩ <;>
      rw [heq] at hgoes ⊢ <;> exact hgoes rfl (hs.of_reads rfl id)
  | @probesForSeek _ _ offsets u _ hprobe =>
    obtain ⟨fs, hfs, _⟩ := probe_fetches hprobe
    rcases finishSeekToOffsets_cases u.syncAssignment offsets with heq | ⟨_, _, heq⟩ <;>
      rw [heq, hfs.eq] at hgoes ⊢ <;> exact hgoes rfl (hs.of_reads rfl id)
  | @probesToBeginSeek _ _ partitions u _ hprobe =>
    obtain ⟨fs, hfs, _⟩ := probe_fetches hprobe
    rcases beginSeek_cases u.syncAssignment partitions with heq | ⟨_, heq⟩ <;>
      rw [heq, hfs.eq] at hgoes ⊢ <;> exact hgoes rfl (hs.of_reads rfl id)
  | _ => exact hgoes rfl (hs.of_reads rfl id)

end Source

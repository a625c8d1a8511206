import AgoraPlugins.Kafka.Source

/-!
# What a step of the source can do

`Source.step` is written along the code: it asks what the event is, then where
the stream is, then what is in hand. `Reacts` is the same machine sorted by what
becomes of the books, one constructor for each kind of change, with what is
known when it happens. Everything proved about runs of the source starts from
`step_reacts` and goes through these kinds; none of it unfolds the machine.

Most steps leave the books alone. Of these it matters only that they do not set
the stream going again once it has ended, that the stream moves only when
nothing it waits for is outstanding (`Idles`), and which of them leave it in the
midst of a batch (`Turns`).
-/

/-- Whether a caller of `commit_if_needed` forces the commit. -/
def Caller.forces : Caller → Bool
  | .handler | .final | .revoked _ | .close => true
  | .acknowledge | .deliver | .commitNow => false

/-- Whether the stream goes on by itself from here. -/
def Pc.inLoop : Pc → Bool
  | .refreshing | .positioning | .polling _ | .advancing | .deserializing | .capturing _ _ => true
  | .idle | .yielded _ | .committing | .ended => false

/-- Whether the stream is still to get a batch. -/
def Pc.awaitsBatch : Pc → Bool
  | .refreshing | .positioning | .polling _ => true
  | .idle | .advancing | .deserializing | .capturing _ _ | .yielded _ | .committing
  | .ended => false

namespace Source

/-! ## The turn of the stream -/

/-- Whether the stream goes on by itself: it has not ended, and no record of it
is in the pipeline's hands. -/
def live (s : Source) : Bool :=
  s.call.any (fun c => c.1 = .deliver) || s.commits.any (fun c => c.caller = .deliver)
    || s.pc.inLoop

/-- **Whether the stream is still to read** what it has been assigned. -/
def reads (s : Source) : Bool :=
  s.live || match s.pc with
    | .yielded _ => true
    | _ => false

/-- Whether a clause of the stream calls for a commit on its way out. -/
def unwinds (s : Source) : Bool :=
  s.call.any (fun c => c.1 = .handler || c.1 = .final)

/-- **How a commit has been called for**: by a clause of the stream where it is on its way out, and
forced by all but the acknowledgements. -/
structure Calls (s : Source) : Prop where
  out : s.unwinds = true → s.pc = .committing
  forced : ∀ caller force, s.call = some (caller, force) → caller.forces = true → force = true

/-- Whether the stream is the one that is running, or waits for something other
than a commit. -/
def onTurn (s : Source) : Prop :=
  s.pc ≠ .committing ∨ ∃ caller force, s.call = some (caller, force) ∧ caller.isStream = true

/-- **A step that leaves the books alone.** -/
structure Idles (s t : Source) : Prop where
  books : t.toBooks = s.toBooks
  wasLive : t.live = true → s.live = true
  turn : s.onTurn ∨ t.pc = s.pc ∧ ∀ caller force, t.call = some (caller, force) →
    caller.isStream = false
  awaits : t.pc.awaitsBatch = true → s.pc.awaitsBatch = true ∨ s.batch = []
  yields : ∀ i, t.pc = .yielded i → s.pc = .yielded i

end Source

/-- The events that may find nothing to do, or nothing the books would show. -/
def Event.isQuiet : Event → Bool
  | .proceed | .close | .polled _ | .pollStopped | .pollFailed | .deserializedBatch _
  | .malformed _ | .closeStream | .interrupted | .acknowledge _ | .revoked _
  | .seekToOffsets _ | .seekWithConsumerMethod _ => true
  | .openPoisonSink _ | .closePoisonSink _ | .open _ | .prepareResume _ | .checkpoint | .stream
  | .probed _ | .deserialized | .captured _ | .next | .transactionCommitted _ | .committed _
  | .commitFailed _ | .assigned _ _ | .commitNow | .pause _ | .resume _ | .operatorProbed _ _
  | .seeked _ _ | .seekFailed _ _ _ => false

/-- The events by which a stream is left from outside. -/
def Event.leavesStream : Event → Bool
  | .closeStream | .interrupted => true
  | _ => false

/-- The events by which the deserializer fails a batch of this length. -/
def Event.failsBatch (length : ℕ) : Event → Bool
  | .malformed _ => true
  | .deserializedBatch count => count ≠ length
  | _ => false

namespace Source

/-- **A step that leaves the books alone goes on with the stream** unless the
stream is left from outside, has no batch yet, or is on its way out. -/
structure Turns (e : Event) (s t : Source) : Prop where
  fails : e.failsBatch s.batch.length = false
  leaves : e.leavesStream = true → s.onTurn ∧ (t.pc = .committing ∨ t.pc = .ended)
    ∧ ∀ caller force, t.call = some (caller, force) → caller ≠ .deliver
  stays : e.leavesStream = false → s.reads = true →
    t.reads = true ∨ s.pc.awaitsBatch = true ∨ s.unwinds = true
  calls : Calls t

/-- **The kinds of steps.** -/
inductive Reacts (cfg : SourceConfig) (retry : KafkaSink.RetryAsync DLQRecord) (s : Source) :
    Event → Source → Prop where
  /-- nothing happens to the books -/
  | idles {e t} (he : e.isQuiet = true) (h : Idles s t) (hturns : Turns e s t) :
      Reacts cfg retry s e t
  /-- the dead letter sink is opened or closed -/
  | opensPoisonSink {script sink} (hopened : s.operator.opened = false)
      (hproducer : s.poison.sink.producer = false) (hsink : cfg.poison.sink = some sink) :
      Reacts cfg retry s (.openPoisonSink script)
        (s.runPoison script (Poison.onSink (KafkaSink.open sink)))
  | closesPoisonSink {script sink} (hopened : s.operator.opened = false)
      (hsink : cfg.poison.sink = some sink) :
      Reacts cfg retry s (.closePoisonSink script)
        (s.runPoison script (Poison.onSink (KafkaSink.close sink retry)))
  /-- a session begins -/
  | opens {position} (hopened : s.operator.opened = false) (hpc : s.pc = .idle ∨ s.pc = .ended) :
      Reacts cfg retry s (.open position) (s.openConsumer cfg position)
  /-- a session ends -/
  | closes {force} (hcall : s.call = some (.close, force))
      (hdue : s.commitDue cfg force = false) :
      Reacts cfg retry s .proceed s.enterCall.consumerClosed
  | resumes {checkpoint} :
      Reacts cfg retry s (.prepareResume checkpoint)
        { s with cursor := s.cursor.prepareResume (resumedOffsets checkpoint) }
  | checkpoints :
      Reacts cfg retry s .checkpoint { s with cursor := s.cursor.currentCheckpoint.2 }
  /-- a stream starts -/
  | starts (hopened : s.operator.opened = true) (hpc : s.pc = .idle ∨ s.pc = .ended) :
      Reacts cfg retry s .stream s.startStream
  /-- a probe of the stream's is answered -/
  | refreshes {message u} (hpc : s.pc = .refreshing) (hprobe : s.probe message = some u) :
      Reacts cfg retry s (.probed message) u.syncAssignment.applyInitialPositioning
  | positions {message u} (hpc : s.pc = .positioning) (hprobe : s.probe message = some u) :
      Reacts cfg retry s (.probed message) u.syncAssignment.seekAndStart
  /-- a poll is answered with messages -/
  | receives {records idlePolls messages u} (hpc : s.pc = .polling idlePolls)
      (hfetch : s.fetchAll records = some (messages, u)) (hne : messages ≠ []) :
      Reacts cfg retry s (.polled records) (u.receive cfg idlePolls messages)
  /-- a record is handed out -/
  | emits {e f rest} (he : e = .proceed ∨ e = .deserialized) (hcall : s.call = none)
      (hpc : s.pc = .advancing ∨ s.pc = .deserializing) (hbatch : s.batch = f :: rest) :
      Reacts cfg retry s e (s.emitRecord f rest)
  /-- the next one is asked for, after an acknowledgement or without one -/
  | goesOn {i d} (hcall : s.call = none) (hpc : s.pc = .yielded i)
      (hd : s.deliveries[i]? = some d) (hack : d.acknowledged = true) :
      Reacts cfg retry s .next { s.clearActiveDelivery with pc := .advancing }
  | passesOver {i d} (hcall : s.call = none) (hpc : s.pc = .yielded i)
      (hd : s.deliveries[i]? = some d) (hack : d.acknowledged = false) :
      Reacts cfg retry s .next (s.clearActiveDelivery.acknowledgeDelivery cfg i d .deliver)
  | acknowledges {i d} (hcall : s.call = none) (hd : s.deliveries[i]? = some d)
      (hack : d.acknowledged = false) :
      Reacts cfg retry s (.acknowledge i) (s.acknowledgeDelivery cfg i d .acknowledge)
  | transacts {i d} (hd : s.deliveries[i]? = some d) :
      Reacts cfg retry s (.transactionCommitted i) (s.transactionCommitted i d)
  /-- messages are poison, to be captured -/
  | errs {e u t} (he : e.isQuiet = true) (hcall : s.call = none) (hpc : s.pc = .deserializing)
      (hupc : u.pc = .deserializing)
      (hcaptures : cfg.poison.policy.capturesRecords = true)
      (hu : u.poison = Poison.observePoisonRecords cfg.poison (s.poisonMessages cfg).length s.poison)
      (hbooks : u.toBooks = { s.toBooks with poison := u.poison }) (h : Idles u t)
      (hreads : t.reads = true) (hnone : t.call = none)
      (hfails : e.failsBatch s.batch.length = true) :
      Reacts cfg retry s e t
  /-- messages are poison, and have been captured or need not be -/
  | captures {script stage e} (hcall : s.call = none) (hpc : s.pc = .capturing stage e)
      (hraises : Effect.raises (s.capture cfg retry stage e) (s.withScript script) = false) :
      Reacts cfg retry s (.captured script)
        ((s.runPoison script (s.capture cfg retry stage e)).poisonCaptured cfg)
  | drops {e u} (he : e.isQuiet = true) (hcall : s.call = none) (hpc : s.pc = .deserializing)
      (hcaptures : cfg.poison.policy.capturesRecords = false)
      (hu : u = s ∨ u = s.clearActiveDelivery) (hfails : e.failsBatch s.batch.length = true) :
      Reacts cfg retry s e ((u.countErrors cfg).poisonCaptured cfg)
  /-- the capture fails -/
  | captureFails {script stage e} (hcall : s.call = none) (hpc : s.pc = .capturing stage e)
      (hraises : Effect.raises (s.capture cfg retry stage e) (s.withScript script) = true) :
      Reacts cfg retry s (.captured script)
        (s.runPoison script (s.capture cfg retry stage e)).handleError
  /-- a commit is issued -/
  | commits {caller force} (hcall : s.call = some (caller, force))
      (hdue : s.commitDue cfg force = true) :
      Reacts cfg retry s .proceed (s.enterCall.issueCommit caller)
  | commitsNow (hcall : s.call = none) (hopened : s.operator.opened = true) :
      Reacts cfg retry s .commitNow (s.issueCommit .commitNow)
  /-- a commit is answered -/
  | committed {i c} (hcall : s.call = none) (hc : s.commits[i]? = some c) :
      Reacts cfg retry s (.committed i)
        (((s.dropCommit i).recordCommit c.request).commitReturns c.caller)
  | commitFailed {i c} (hcall : s.call = none) (hc : s.commits[i]? = some c) :
      Reacts cfg retry s (.commitFailed i) ((s.dropCommit i).commitRaises c.caller)
  /-- the partitions a revoked callback was about go -/
  | revokes {ps force} (hcall : s.call = some (.revoked ps, force))
      (hdue : s.commitDue cfg force = false) :
      Reacts cfg retry s .proceed ((s.enterCall.dropRevoked ps).partitionsLost ps)
  | assigns {ps position} (hopened : s.operator.opened = true) :
      Reacts cfg retry s (.assigned ps position) (s.partitionsAssigned ps position)
  | pauses {partitions} :
      Reacts cfg retry s (.pause partitions) (s.operate (Operator.pause partitions))
  | unpauses {partitions} :
      Reacts cfg retry s (.resume partitions) (s.operate (Operator.resume partitions))
  /-- a seek waits for a probe, or for the consumer -/
  | asks {e call} (he : e.isQuiet = true) (hpart : e.part = .operator) :
      Reacts cfg retry s e { s with calls := s.calls ++ [call] }
  | beginsSeek {e partitions} (he : e.isQuiet = true) (hpart : e.part = .operator) :
      Reacts cfg retry s e (s.syncAssignment.beginSeek partitions)
  | seeks {offsets} (hopened : s.operator.opened = true) :
      Reacts cfg retry s (.seekToOffsets offsets) (s.syncAssignment.finishSeekToOffsets offsets)
  | probesForSeek {i message offsets u} (hcall : s.calls[i]? = some (.seekToOffsets offsets))
      (hprobe : (s.dropCall i).probe message = some u) :
      Reacts cfg retry s (.operatorProbed i message) (u.syncAssignment.finishSeekToOffsets offsets)
  | probesToBeginSeek {i message partitions u}
      (hcall : s.calls[i]? = some (.seekWithConsumerMethod partitions))
      (hprobe : (s.dropCall i).probe message = some u) :
      Reacts cfg retry s (.operatorProbed i message) (u.syncAssignment.beginSeek partitions)
  | seeked {i targets position} (hcall : s.calls[i]? = some (.seeking targets)) :
      Reacts cfg retry s (.seeked i position) ((s.dropCall i).finishSeek targets position)
  | seekFailed {i targets moved position} (hcall : s.calls[i]? = some (.seeking targets)) :
      Reacts cfg retry s (.seekFailed i moved position)
        ((s.dropCall i).moveConsumer (targets ∩ moved) position)

variable {cfg : SourceConfig} {retry : KafkaSink.RetryAsync DLQRecord} {s t u : Source}
  {e : Event}

/-! ## Fetching -/

/-- **Messages have been returned**, in order, each of an assigned partition from
behind the position that had; nothing but the positions has changed. -/
structure Fetches (s : Source) (fs : List Fetched) (t : Source) : Prop where
  eq : t = { s with
    operator := { s.operator with consumer := { s.operator.consumer with
      position := t.operator.consumer.position } }
    history := { s.history with returned := s.history.returned ++ fs } }
  seqs : fs.map Fetched.seq = List.range' s.history.returned.length fs.length
  assigned : ∀ f ∈ fs, f.tp ∈ s.operator.consumer.assignment
  position : ∀ tp, s.operator.consumer.position tp ≤ t.operator.consumer.position tp
  bounds : ∀ f ∈ fs, s.operator.consumer.position f.tp ≤ f.offset
    ∧ f.offset < t.operator.consumer.position f.tp
  increasing : fs.Pairwise (fun f g => f.tp = g.tp → f.offset < g.offset)

namespace Fetches

variable {fs gs : List Fetched}

theorem refl (s : Source) : Fetches s [] s where
  eq := by rw [List.append_nil]
  seqs := rfl
  assigned _ hf := nomatch hf
  position _ := Int.le_refl _
  bounds _ hf := nomatch hf
  increasing := .nil

/-- What is fetched is appended to what has been handed out. -/
theorem returned (h : Fetches s fs t) : t.history.returned = s.history.returned ++ fs := by
  rw [h.eq]

theorem trans (h : Fetches s fs t) (h' : Fetches t gs u) : Fetches s (fs ++ gs) u where
  eq := by
    rw [h'.eq, h.eq, List.append_assoc]
  seqs := by
    rw [List.map_append, h.seqs, h'.seqs, h.returned, List.length_append, List.length_append,
      List.range'_append_1]
  assigned f hf := by
    rcases List.mem_append.1 hf with hf | hf
    · exact h.assigned f hf
    · have hassigned := h'.assigned f hf
      rw [h.eq] at hassigned
      exact hassigned
  position tp := Int.le_trans (h.position tp) (h'.position tp)
  bounds f hf := by
    rcases List.mem_append.1 hf with hf | hf
    · exact ⟨(h.bounds f hf).1, Int.lt_of_lt_of_le (h.bounds f hf).2 (h'.position f.tp)⟩
    · exact ⟨Int.le_trans (h.position f.tp) (h'.bounds f hf).1, (h'.bounds f hf).2⟩
  increasing := by
    refine List.pairwise_append.2 ⟨h.increasing, h'.increasing, fun f hf g hg htp => ?_⟩
    have hlt := (h.bounds f hf).2
    rw [htp] at hlt
    exact Int.lt_of_lt_of_le hlt (h'.bounds g hg).1

end Fetches

/-- **One record** is fetched at its position, which it moves. -/
theorem fetchOne_fetches {record : ConsumerRecord} {f : Fetched}
    (h : s.fetchOne record = some (f, t)) : Fetches s [f] t := by
  obtain ⟨consumer, hc, h⟩ := Option.bind_eq_some_iff.1 h
  cases h
  unfold Consumer.fetch at hc
  rw [Option.ite_none_right_eq_some, Option.some.injEq] at hc
  obtain ⟨⟨hassigned, _, hle⟩, rfl⟩ := hc
  have hpos : (s.operator.consumer.moveTo record.tp (record.offset + 1)).position record.tp
      = record.offset + 1 := if_pos rfl
  refine ⟨rfl, rfl, fun f hf => ?_, fun tp => ?_, fun f hf => ?_, List.pairwise_singleton _ _⟩
  · rw [List.mem_singleton.1 hf]
    exact hassigned
  · show _ ≤ if tp = record.tp then record.offset + 1 else s.operator.consumer.position tp
    split
    · rename_i htp
      rw [htp]
      omega
    · exact Int.le_refl _
  · rw [List.mem_singleton.1 hf]
    refine ⟨hle, ?_⟩
    show record.offset < (s.operator.consumer.moveTo record.tp (record.offset + 1)).position
      record.tp
    rw [hpos]
    omega

/-- By induction, so is a list of them. -/
theorem fetchAll_fetches {records : List ConsumerRecord} {fs : List Fetched}
    (h : s.fetchAll records = some (fs, t)) : Fetches s fs t := by
  induction records generalizing s fs with
  | nil =>
    cases h
    exact .refl _
  | cons record records ih =>
    obtain ⟨⟨f, u⟩, hone, h⟩ := Option.bind_eq_some_iff.1 h
    obtain ⟨⟨gs, v⟩, hall, h⟩ := Option.bind_eq_some_iff.1 h
    cases h
    exact (fetchOne_fetches hone).trans (ih hall)

/-- A poll that is answered with no message changes nothing. -/
theorem eq_of_fetchAll_nil {records : List ConsumerRecord}
    (h : s.fetchAll records = some ([], t)) : t = s := by
  cases records with
  | nil => cases h; rfl
  | cons record records =>
    obtain ⟨⟨f, u⟩, _, h⟩ := Option.bind_eq_some_iff.1 h
    obtain ⟨⟨gs, v⟩, _, h⟩ := Option.bind_eq_some_iff.1 h
    cases h

/-- A probe returns what its answer says, and nobody keeps it. -/
theorem probe_fetches {message : Option ConsumerRecord} (h : s.probe message = some t) :
    ∃ fs, Fetches s fs t ∧ fs.length = message.toList.length := by
  cases message with
  | none =>
    cases h
    exact ⟨[], .refl s, rfl⟩
  | some record =>
    obtain ⟨⟨f, u⟩, hone, rfl⟩ := Option.map_eq_some_iff.1 h
    exact ⟨[f], fetchOne_fetches hone, rfl⟩

/-! ## The inversion of a step -/

/-- A step that leaves the books and the stream alone. -/
theorem Idles.aside (hbooks : t.toBooks = s.toBooks) (hpc : t.pc = s.pc)
    (hcall : ∀ caller force, t.call = some (caller, force) → caller.isStream = false) :
    Idles s t := by
  refine ⟨hbooks, fun hl => ?_, .inr ⟨hpc, hcall⟩, fun ha => .inl (hpc ▸ ha), fun i hi => hpc ▸ hi⟩
  have hdeliver : t.call.any (fun c => c.1 = .deliver) = false := by
    cases hc : t.call with
    | none => rfl
    | some c =>
      have hne : c.1 ≠ .deliver := by
        intro heq
        have hstream := hcall c.1 c.2 hc
        rw [heq] at hstream
        cases hstream
      show decide (c.1 = .deliver) = false
      exact decide_eq_false hne
  have hcommits : t.commits = s.commits := congrArg Books.commits hbooks
  unfold live at hl ⊢
  rw [hdeliver, hpc, hcommits, Bool.false_or] at hl
  rw [Bool.or_assoc, hl, Bool.or_true]

/-- A step that takes the stream out of its loop. -/
theorem Idles.leaving (hbooks : t.toBooks = s.toBooks) (hturn : s.onTurn)
    (hpc : t.pc = .committing ∨ t.pc = .ended)
    (hcall : ∀ caller force, t.call = some (caller, force) → caller ≠ .deliver) : Idles s t := by
  refine ⟨hbooks, fun hl => ?_, .inl hturn, fun ha => ?_, fun i hi => ?_⟩
  rotate_left
  · rcases hpc with hpc | hpc <;> rw [hpc] at ha <;> cases ha
  · rcases hpc with hpc | hpc <;> rw [hpc] at hi <;> cases hi
  have hdeliver : t.call.any (fun c => c.1 = .deliver) = false := by
    cases hc : t.call with
    | none => rfl
    | some c => exact decide_eq_false (hcall c.1 c.2 hc)
  have hcommits : t.commits = s.commits := congrArg Books.commits hbooks
  unfold live at hl ⊢
  rw [hdeliver, hcommits, Bool.false_or] at hl
  have hany : s.commits.any (fun c => c.caller = .deliver) = true := by
    rcases hpc with hpc | hpc <;> rw [hpc] at hl <;> exact (Bool.or_false _).symm.trans hl
  rw [hany, Bool.or_true, Bool.true_or]

/-- A step within the loop of the stream. -/
theorem Idles.within (hbooks : t.toBooks = s.toBooks) (hturn : s.onTurn) (hlive : s.live = true)
    (hawaits : t.pc.awaitsBatch = true → s.pc.awaitsBatch = true ∨ s.batch = [])
    (hyields : ∀ i, t.pc ≠ .yielded i) : Idles s t :=
  ⟨hbooks, fun _ => hlive, .inl hturn, hawaits, fun i hi => absurd hi (hyields i)⟩

/-- Nothing happens, while no call waits. -/
theorem Idles.refl (s : Source) (h : s.call = none) : Idles s s :=
  .aside rfl rfl (fun caller force hc => by rw [h] at hc; cases hc)

theorem live_of_inLoop (h : s.pc.inLoop = true) : s.live = true := by
  unfold live
  rw [h, Bool.or_true]

theorem reads_of_live (h : s.live = true) : s.reads = true := by
  unfold reads
  rw [h, Bool.true_or]

theorem reads_of_inLoop (h : s.pc.inLoop = true) : s.reads = true :=
  reads_of_live (live_of_inLoop h)

/-- Where no call waits, none is unwound. -/
theorem unwinds_of_none (h : s.call = none) : s.unwinds = false := by
  rw [unwinds, h]
  rfl

theorem calls_of_none (h : s.call = none) : Calls s where
  out hout := by
    rw [unwinds_of_none h] at hout
    cases hout
  forced caller force hc := by
    rw [h] at hc
    cases hc

/-- A call of a coroutine other than the stream. -/
theorem calls_of_aside (hout : s.unwinds = false)
    (hforce : ∀ caller force, s.call = some (caller, force) → caller.forces = true →
      force = true) : Calls s where
  out h := by
    rw [hout] at h
    cases h
  forced := hforce

/-- A forced call of the stream on its way out. -/
theorem calls_of_committing (hpc : s.pc = .committing)
    (hforce : ∀ caller force, s.call = some (caller, force) → force = true) : Calls s where
  out _ := hpc
  forced caller force hc _ := hforce caller force hc

/-- The stream goes on within its loop. -/
theorem Turns.within (hfails : e.failsBatch s.batch.length = false)
    (hleaves : e.leavesStream = false) (h : t.pc.inLoop = true) (hcall : t.call = none) :
    Turns e s t where
  fails := hfails
  leaves h := by
    rw [hleaves] at h
    cases h
  stays _ _ := .inl (reads_of_inLoop h)
  calls := calls_of_none hcall

/-- The stream stays where it is. -/
theorem Turns.aside (hfails : e.failsBatch s.batch.length = false)
    (hleaves : e.leavesStream = false) (hbooks : t.toBooks = s.toBooks) (hpc : t.pc = s.pc)
    (hcall : ∀ force, s.call ≠ some (.deliver, force)) (hcalls : Calls t) :
    Turns e s t where
  fails := hfails
  leaves h := by
    rw [hleaves] at h
    cases h
  stays _ hr := by
    have hcommits : t.commits = s.commits := congrArg Books.commits hbooks
    have hdeliver : s.call.any (fun c => c.1 = .deliver) = false := by
      cases hc : s.call with
      | none => rfl
      | some c => exact decide_eq_false (fun heq => hcall c.2 (by rw [hc, ← heq]))
    refine .inl ?_
    unfold reads live at hr ⊢
    rw [hdeliver, Bool.false_or] at hr
    rw [hcommits, hpc, Bool.or_assoc, Bool.or_assoc, ← Bool.or_assoc (s.commits.any _), hr,
      Bool.or_true]
  calls := hcalls

/-- Nothing happens. -/
theorem Turns.refl (hfails : e.failsBatch s.batch.length = false)
    (hleaves : e.leavesStream = false) (hcall : s.call = none) : Turns e s s := by
  refine .aside hfails hleaves rfl rfl (fun force => ?_) (calls_of_none hcall)
  rw [hcall]
  exact nofun

/-- A stream that is still to get a batch has none to leave. -/
theorem Turns.awaiting (hfails : e.failsBatch s.batch.length = false)
    (hleaves : e.leavesStream = false) (h : s.pc.awaitsBatch = true)
    (hcalls : Calls t) : Turns e s t where
  fails := hfails
  leaves h := by
    rw [hleaves] at h
    cases h
  stays _ _ := .inr (.inl h)
  calls := hcalls

/-- The stream goes on its way out. -/
theorem Turns.unwinding (hfails : e.failsBatch s.batch.length = false)
    (hleaves : e.leavesStream = false) (h : s.unwinds = true)
    (hcalls : Calls t) : Turns e s t where
  fails := hfails
  leaves h := by
    rw [hleaves] at h
    cases h
  stays _ _ := .inr (.inr h)
  calls := hcalls

/-- The stream is left from outside. -/
theorem Turns.leaving (hfails : e.failsBatch s.batch.length = false)
    (hleaves : e.leavesStream = true) (hturn : s.onTurn) (hpc : t.pc = .committing ∨ t.pc = .ended)
    (hcall : ∀ caller force, t.call = some (caller, force) → caller ≠ .deliver)
    (hcalls : Calls t) : Turns e s t where
  fails := hfails
  leaves _ := ⟨hturn, hpc, hcall⟩
  stays h := by
    rw [hleaves] at h
    cases h
  calls := hcalls

/-- In the loop it is the stream's turn. -/
theorem onTurn_of_inLoop (h : s.pc.inLoop = true) : s.onTurn := by
  refine .inl (fun hpc => ?_)
  rw [hpc] at h
  cases h

/-- The steps of a coroutine that is running. -/
theorem reacts_proceed (h : s.proceed cfg = some t) : Reacts cfg retry s .proceed t := by
  unfold proceed at h
  cases hcall : s.call with
  | some c =>
    obtain ⟨caller, force⟩ := c
    rw [hcall, Option.some.injEq] at h
    subst h
    show Reacts cfg retry s .proceed (s.enterCall.commitIfNeeded cfg caller force)
    unfold commitIfNeeded
    by_cases hdue : s.commitDue cfg force = true
    · rw [if_pos (show s.enterCall.commitDue cfg force = true from hdue)]
      exact .commits hcall hdue
    · rw [if_neg (show ¬ s.enterCall.commitDue cfg force = true from hdue)]
      have hturn : caller.isStream = true → s.onTurn := fun hs => .inr ⟨caller, force, hcall, hs⟩
      cases caller with
      | revoked ps => exact .revokes hcall (Bool.not_eq_true _ ▸ hdue)
      | close => exact .closes hcall (Bool.not_eq_true _ ▸ hdue)
      | acknowledge =>
        exact .idles rfl (.aside rfl rfl nofun)
          (.aside rfl rfl rfl rfl (by rw [hcall]; exact nofun) (calls_of_none rfl))
      | commitNow =>
        exact .idles rfl (.aside rfl rfl nofun)
          (.aside rfl rfl rfl rfl (by rw [hcall]; exact nofun) (calls_of_none rfl))
      | deliver =>
        refine .idles rfl (.within rfl (hturn rfl) ?_ nofun nofun) (.within rfl rfl rfl rfl)
        unfold live
        rw [hcall]
        rfl
      | handler =>
        refine .idles rfl (.leaving rfl (hturn rfl) (.inl rfl) ?_)
          (.unwinding rfl rfl ?_ (calls_of_committing rfl (by rintro caller force ⟨⟩; rfl)))
        · rintro caller force ⟨⟩ ⟨⟩
        · rw [unwinds, hcall]
          rfl
      | final =>
        refine .idles rfl (.leaving rfl (hturn rfl) (.inr rfl) nofun) (.unwinding rfl rfl ?_ (calls_of_none rfl))
        rw [unwinds, hcall]
        rfl
  | none =>
    rw [hcall] at h
    by_cases hpc : s.pc = .advancing
    · rw [if_pos hpc, Option.some.injEq] at h
      subst h
      have hloop : s.pc.inLoop = true := by rw [hpc]; rfl
      have hturn : s.onTurn := onTurn_of_inLoop hloop
      have hlive : s.live = true := live_of_inLoop hloop
      unfold advance
      cases hbatch : s.batch with
      | nil =>
        exact .idles rfl (.within rfl hturn hlive (fun _ => .inr hbatch) nofun)
          (.within rfl rfl rfl hcall)
      | cons f rest =>
        show Reacts cfg retry s .proceed
          (if cfg.hasBatchDeserializer then s.emitRecord f rest else { s with pc := .deserializing })
        by_cases hb : cfg.hasBatchDeserializer = true
        · rw [if_pos hb]
          exact .emits (.inl rfl) hcall (.inl hpc) hbatch
        · rw [if_neg hb]
          exact .idles rfl (.within rfl hturn hlive nofun nofun) (.within rfl rfl rfl hcall)
    · rw [if_neg hpc] at h
      cases h

/-- **Opening, closing and rebalancing.** -/
theorem reacts_session (hcall : s.call = none) (h : s.reactSession cfg retry e = some t) :
    Reacts cfg retry s e t := by
  cases e <;> try cases h
  case openPoisonSink script =>
    simp only [reactSession, Option.ite_none_left_eq_some, Bool.or_eq_true, not_or,
      Bool.not_eq_true, Option.map_eq_some_iff] at h
    obtain ⟨⟨hopened, hproducer⟩, sink, hsink, rfl⟩ := h
    exact .opensPoisonSink hopened hproducer hsink
  case closePoisonSink script =>
    simp only [reactSession, Option.ite_none_left_eq_some, Bool.not_eq_true,
      Option.map_eq_some_iff] at h
    obtain ⟨hopened, sink, hsink, rfl⟩ := h
    exact .closesPoisonSink hopened hsink
  case «open» position =>
    simp only [reactSession, Option.ite_none_left_eq_some, Option.some.injEq] at h
    obtain ⟨hno, rfl⟩ := h
    refine .opens ?_ ?_
    · cases hopened : s.operator.opened with
      | false => rfl
      | true => rw [hopened] at hno; exact absurd rfl hno
    · by_contra hpc
      rw [not_or] at hpc
      exact hno (by simp [hpc.1, hpc.2])
  case close =>
    simp only [reactSession, Option.ite_none_right_eq_some, Option.some.injEq] at h
    obtain ⟨_, rfl⟩ := h
    exact .idles rfl (.aside rfl rfl (by rintro caller force ⟨⟩; rfl))
      (.aside rfl rfl rfl rfl (by rw [hcall]; exact nofun)
        (calls_of_aside rfl (by rintro caller force ⟨⟩ _; rfl)))
  case prepareResume checkpoint => exact .resumes
  case checkpoint => exact .checkpoints

/-- **The operator's calls.** -/
theorem reacts_operator (hcall : s.call = none) (h : s.reactOperator e = some t) :
    Reacts cfg retry s e t := by
  cases e <;> try cases h
  case pause partitions => exact .pauses
  case resume partitions => exact .unpauses
  case seekToOffsets offsets =>
    simp only [reactOperator] at h
    split at h
    · rw [Option.some.injEq] at h
      exact .idles rfl (h ▸ .refl s hcall) (h ▸ .refl rfl rfl hcall)
    · rename_i hne
      split at h
      · rw [Option.some.injEq] at h
        exact h ▸ .asks rfl rfl
      · rw [Option.some.injEq] at h
        have hopened : ¬ offsets.entries = [] ∧ s.operator.opened = true := by simpa using hne
        exact h ▸ .seeks hopened.2
  case seekWithConsumerMethod partitions =>
    simp only [reactOperator] at h
    split at h
    · rw [Option.some.injEq] at h
      exact .idles rfl (h ▸ .refl s hcall) (h ▸ .refl rfl rfl hcall)
    · split at h
      · rw [Option.some.injEq] at h
        exact h ▸ .asks rfl rfl
      · rw [Option.some.injEq] at h
        exact h ▸ .beginsSeek rfl rfl
  case operatorProbed i message =>
    simp only [reactOperator] at h
    split at h
    · rename_i offsets hi
      obtain ⟨u, hu, rfl⟩ := Option.map_eq_some_iff.1 h
      exact .probesForSeek hi hu
    · rename_i partitions hi
      obtain ⟨u, hu, rfl⟩ := Option.map_eq_some_iff.1 h
      exact .probesToBeginSeek hi hu
    · cases h
  case seeked i position =>
    simp only [reactOperator] at h
    split at h
    · rename_i targets hi
      rw [Option.some.injEq] at h
      exact h ▸ .seeked hi
    · cases h
  case seekFailed i moved position =>
    simp only [reactOperator] at h
    split at h
    · rename_i targets hi
      rw [Option.some.injEq] at h
      exact h ▸ .seekFailed hi
    · cases h

/-- **Commits**, as they are sent and as they end. -/
theorem reacts_commit (hcall : s.call = none) (h : s.reactCommit cfg e = some t) :
    Reacts cfg retry s e t := by
  cases e <;> try cases h
  case acknowledge i =>
    obtain ⟨d, hd, ht⟩ := Option.map_eq_some_iff.1 h
    cases hack : d.acknowledged with
    | true =>
      rw [hack, if_pos rfl] at ht
      exact .idles rfl (ht ▸ .refl s hcall) (ht ▸ .refl rfl rfl hcall)
    | false =>
      rw [hack, if_neg Bool.false_ne_true] at ht
      exact ht ▸ .acknowledges hcall hd hack
  case transactionCommitted i =>
    obtain ⟨d, hd, rfl⟩ := Option.map_eq_some_iff.1 h
    exact .transacts hd
  case committed i =>
    obtain ⟨c, hc, rfl⟩ := Option.map_eq_some_iff.1 h
    exact .committed hcall hc
  case commitFailed i =>
    obtain ⟨c, hc, rfl⟩ := Option.map_eq_some_iff.1 h
    exact .commitFailed hcall hc
  case assigned ps position =>
    simp only [reactCommit, Option.ite_none_right_eq_some, Option.some.injEq] at h
    obtain ⟨hopened, rfl⟩ := h
    exact .assigns hopened
  case revoked ps =>
    simp only [reactCommit, Option.ite_none_right_eq_some, Option.some.injEq] at h
    obtain ⟨_, rfl⟩ := h
    exact .idles rfl (.aside rfl rfl (by rintro caller force ⟨⟩; rfl))
      (.aside rfl rfl rfl rfl (by rw [hcall]; exact nofun)
        (calls_of_aside rfl (by rintro caller force ⟨⟩ _; rfl)))
  case commitNow =>
    simp only [reactCommit, Option.ite_none_right_eq_some, Option.some.injEq] at h
    obtain ⟨hopened, rfl⟩ := h
    exact .commitsNow hcall hopened

/-- The deserializer has failed, and the poison is captured next or dropped. -/
theorem reacts_deserializeFailed {stage : String} {exc : Exc} (he : e.isQuiet = true)
    (hcall : s.call = none) (hpc : s.pc = .deserializing)
    (hu : u = s ∨ u = s.clearActiveDelivery) (hfails : e.failsBatch s.batch.length = true) :
    Reacts cfg retry s e (u.deserializeFailed cfg stage exc) := by
  have hloop : s.pc.inLoop = true := by rw [hpc]; rfl
  unfold deserializeFailed
  cases hcaptures : cfg.poison.policy.capturesRecords with
  | false => exact .drops he hcall hpc hcaptures hu hfails
  | true =>
    rw [if_pos rfl]
    rcases hu with rfl | rfl
    · exact .errs (u := u.countErrors cfg) he hcall hpc hpc hcaptures rfl rfl
        (.within rfl (onTurn_of_inLoop hloop) (live_of_inLoop hloop) nofun nofun)
        (reads_of_inLoop rfl) hcall hfails
    · exact .errs (u := s.clearActiveDelivery.countErrors cfg) he hcall hpc hpc hcaptures rfl rfl
        (.within rfl (onTurn_of_inLoop hloop) (live_of_inLoop hloop) nofun nofun)
        (reads_of_inLoop rfl) hcall hfails

/-- **The stream**: its batches, its deliveries and how it ends. -/
theorem reacts_stream (hcall : s.call = none) (h : s.reactStream cfg retry e = some t) :
    Reacts cfg retry s e t := by
  -- a call of the stream's own is one that the caller says
  have hquiet : ∀ {caller : Caller} {force : Bool} {u : Source}, u.call = some (caller, force) →
      caller ≠ .deliver → ∀ caller' force', u.call = some (caller', force') →
        caller' ≠ .deliver := by
    intro caller force u hu hne caller' force' hu'
    rw [hu] at hu'
    cases hu'
    exact hne
  cases e <;> try cases h
  case stream =>
    simp only [reactStream, Option.ite_none_right_eq_some, Option.some.injEq, Bool.and_eq_true,
      Bool.or_eq_true, decide_eq_true_eq] at h
    obtain ⟨⟨hopened, hpc⟩, rfl⟩ := h
    exact .starts hopened hpc
  case probed message =>
    simp only [reactStream] at h
    split at h
    · rename_i hpc
      obtain ⟨u, hu, rfl⟩ := Option.map_eq_some_iff.1 h
      exact .refreshes hpc hu
    · rename_i hpc
      obtain ⟨u, hu, rfl⟩ := Option.map_eq_some_iff.1 h
      exact .positions hpc hu
    · cases h
  case polled records =>
    simp only [reactStream] at h
    split at h
    · rename_i idlePolls hpc
      obtain ⟨⟨messages, u⟩, hu, rfl⟩ := Option.map_eq_some_iff.1 h
      have hloop : s.pc.inLoop = true := by rw [hpc]; rfl
      have hawaits : ∀ {pc : Pc}, pc.awaitsBatch = true → s.pc.awaitsBatch = true ∨ s.batch = [] :=
        fun _ => .inl (by rw [hpc]; rfl)
      by_cases hne : messages = []
      · subst hne
        rw [eq_of_fetchAll_nil hu]
        have hidle : Idles s (s.receive cfg idlePolls [])
            ∧ Calls (s.receive cfg idlePolls []) := by
          unfold receive
          rw [if_pos rfl]
          cases cfg.maxIdlePolls with
          | none =>
            exact ⟨.within rfl (onTurn_of_inLoop hloop) (live_of_inLoop hloop) hawaits nofun,
              calls_of_none hcall⟩
          | some maxIdlePolls =>
            by_cases hmax : maxIdlePolls ≤ idlePolls + 1
            · simp only [if_pos hmax]
              exact ⟨.leaving rfl (onTurn_of_inLoop hloop) (.inl rfl) (hquiet rfl nofun),
                calls_of_committing rfl (by rintro caller force ⟨⟩; rfl)⟩
            · simp only [if_neg hmax]
              exact ⟨.within rfl (onTurn_of_inLoop hloop) (live_of_inLoop hloop) hawaits nofun,
                calls_of_none hcall⟩
        exact .idles rfl hidle.1 (.awaiting rfl rfl (by rw [hpc]; rfl) hidle.2)
      · exact .receives hpc hu hne
    · cases h
  case pollStopped =>
    simp only [reactStream] at h
    split at h
    · rename_i hpc
      rw [Option.some.injEq] at h
      subst h
      have hloop : s.pc.inLoop = true := by rw [hpc]; rfl
      exact .idles rfl (.leaving rfl (onTurn_of_inLoop hloop) (.inl rfl) (hquiet rfl nofun))
        (.awaiting rfl rfl (by rw [hpc]; rfl) (calls_of_committing rfl (by rintro caller force ⟨⟩; rfl)))
    · cases h
  case pollFailed =>
    simp only [reactStream] at h
    split at h
    · rename_i hpc
      rw [Option.some.injEq] at h
      subst h
      have hloop : s.pc.inLoop = true := by rw [hpc]; rfl
      exact .idles rfl (.leaving rfl (onTurn_of_inLoop hloop) (.inl rfl) (hquiet rfl nofun))
        (.awaiting rfl rfl (by rw [hpc]; rfl) (calls_of_committing rfl (by rintro caller force ⟨⟩; rfl)))
    · cases h
  case deserialized =>
    simp only [reactStream, Option.ite_none_right_eq_some, Bool.and_eq_true,
      decide_eq_true_eq] at h
    obtain ⟨⟨hpc, _⟩, h⟩ := h
    split at h
    · cases h
    · rename_i f rest hbatch
      rw [Option.some.injEq] at h
      exact h ▸ .emits (.inr rfl) hcall (.inr hpc) hbatch
  case deserializedBatch count =>
    simp only [reactStream, Option.ite_none_right_eq_some, Bool.and_eq_true,
      decide_eq_true_eq] at h
    obtain ⟨⟨hpc, _⟩, h⟩ := h
    have hloop : s.pc.inLoop = true := by rw [hpc]; rfl
    split at h
    · rename_i hcount
      rw [Option.some.injEq] at h
      subst h
      exact .idles rfl (.within rfl (onTurn_of_inLoop hloop) (live_of_inLoop hloop) nofun nofun)
        (.within (decide_eq_false (not_not.2 hcount)) rfl rfl hcall)
    · rename_i hcount
      rw [Option.some.injEq] at h
      exact h ▸ reacts_deserializeFailed rfl hcall hpc (.inr rfl) (decide_eq_true hcount)
  case malformed e =>
    simp only [reactStream, Option.ite_none_right_eq_some, Option.some.injEq, Bool.and_eq_true,
      decide_eq_true_eq] at h
    obtain ⟨⟨hpc, _⟩, rfl⟩ := h
    exact reacts_deserializeFailed rfl hcall hpc (.inl rfl) rfl
  case captured script =>
    simp only [reactStream] at h
    split at h
    · rename_i stage e hpc
      split at h
      · rename_i hraises
        rw [Option.some.injEq] at h
        exact h ▸ .captureFails hcall hpc hraises
      · rename_i hraises
        rw [Option.some.injEq] at h
        exact h ▸ .captures hcall hpc (Bool.not_eq_true _ ▸ hraises)
    · cases h
  case next =>
    simp only [reactStream] at h
    split at h
    · rename_i i hpc
      obtain ⟨d, hd, ht⟩ := Option.map_eq_some_iff.1 h
      split at ht
      · rename_i hack
        exact ht ▸ .goesOn hcall hpc hd hack
      · rename_i hack
        exact ht ▸ .passesOver hcall hpc hd (Bool.not_eq_true _ ▸ hack)
    · cases h
  case closeStream =>
    simp only [reactStream] at h
    split at h
    · rename_i i hpc
      rw [Option.some.injEq] at h
      subst h
      have hturn : s.onTurn := .inl (by rw [hpc]; exact nofun)
      exact .idles rfl (.leaving rfl hturn (.inl rfl) (hquiet rfl nofun))
        (.leaving rfl rfl hturn (.inl rfl) (hquiet rfl nofun) (calls_of_committing rfl (by rintro caller force ⟨⟩; rfl)))
    · cases h
  case interrupted =>
    have hleave : s.pc.inLoop = true → Reacts cfg retry s .interrupted s.handleError :=
      fun hloop => .idles rfl
        (.leaving rfl (onTurn_of_inLoop hloop) (.inl rfl) (hquiet rfl nofun))
        (.leaving rfl rfl (onTurn_of_inLoop hloop) (.inl rfl) (hquiet rfl nofun) (calls_of_committing rfl (by rintro caller force ⟨⟩; rfl)))
    have hend : s.pc.inLoop = true → Reacts cfg retry s .interrupted { s with pc := .ended } := by
      intro hloop
      have hnone : ∀ caller force, s.call = some (caller, force) → caller ≠ .deliver := by
        rw [hcall]
        exact nofun
      exact .idles rfl (.leaving rfl (onTurn_of_inLoop hloop) (.inr rfl) hnone)
        (.leaving rfl rfl (onTurn_of_inLoop hloop) (.inr rfl) hnone
          (calls_of_none hcall))
    cases hpc : s.pc <;> simp only [reactStream, hpc, Option.some.injEq] at h <;>
      first
      | exact h ▸ hend (by rw [hpc]; rfl)
      | exact h ▸ hleave (by rw [hpc]; rfl)
      | cases h

/-- **Every step is of one of the kinds.** -/
theorem step_reacts (h : s.step cfg retry e = some t) : Reacts cfg retry s e t := by
  have hreact : s.busy = false → s.react cfg retry e = some t → Reacts cfg retry s e t := by
    intro hbusy h
    have hcall : s.call = none := by
      cases hc : s.call with
      | none => rfl
      | some c =>
        unfold busy at hbusy
        rw [hc] at hbusy
        cases hbusy
    unfold react at h
    cases hpart : e.part <;> rw [hpart] at h
    case session => exact reacts_session hcall h
    case stream => exact reacts_stream hcall h
    case commit => exact reacts_commit hcall h
    case operator => exact reacts_operator hcall h
  by_cases hproceed : e = .proceed
  · subst hproceed
    exact reacts_proceed h
  · have hstep : (if s.busy then none else s.react cfg retry e) = some t := by
      cases e <;> first | exact absurd rfl hproceed | exact h
    rw [Option.ite_none_left_eq_some, Bool.not_eq_true] at hstep
    exact hreact hstep.1 hstep.2

/-! ## What a commit names -/

/-- A commit of offsets names just these. -/
theorem mem_named_of_iff {offsets : OffsetMap} {tp : TopicPartition} {offset : ℤ} :
    (tp, offset) ∈ (CommitRequest.of offsets).named ↔ offsets.lookup tp = some offset := by
  have hlookup : offsets.lookup tp = some offset
      ↔ (⟨tp, offset⟩ : Σ _ : TopicPartition, ℤ) ∈ offsets.entries :=
    List.mem_dlookup_iff offsets.nodupKeys
  unfold CommitRequest.of
  split
  · rw [hlookup]
    show (tp, offset) ∈ offsets.entries.map (fun e => (e.1, e.2)) ↔ _
    rw [List.mem_map]
    constructor
    · rintro ⟨e, he, heq⟩
      cases heq
      exact he
    · intro h
      exact ⟨_, h, rfl⟩
  · rename_i hempty
    rw [hlookup, not_not.1 hempty]
    exact iff_of_false (List.not_mem_nil) (List.not_mem_nil)

/-- **A commit names, of each partition, the offset after the committable
one.** -/
theorem mem_named_buildCommitOffsets_iff {c : CursorState} {tp : TopicPartition} {offset : ℤ} :
    (tp, offset) ∈ (CommitRequest.of c.buildCommitOffsets).named
      ↔ ∃ o, c.committableOffsets.lookup tp = some o ∧ o + 1 = offset := by
  rw [mem_named_of_iff]
  unfold CursorState.buildCommitOffsets
  rw [Dict.lookup_mapValues, Option.map_eq_some_iff]

/-! ## What the longer stretches do -/

/-- A commit that is about to be called has changed nothing in the books. -/
@[simp] theorem toBooks_callCommit (caller : Caller) :
    (s.callCommit cfg caller).toBooks = s.toBooks := by
  unfold callCommit
  split
  · cases caller <;> rfl
  · rfl

/-- **A commit that succeeds** lets its caller go on; only the revoked callback
and `close` then change the books. -/
theorem commitReturns_cases (s : Source) (caller : Caller) :
    (s.commitReturns caller).toBooks = s.toBooks
      ∨ (∃ ps, caller = .revoked ps
        ∧ (s.commitReturns caller).toBooks = ((s.dropRevoked ps).partitionsLost ps).toBooks)
      ∨ caller = .close ∧ (s.commitReturns caller).toBooks = s.consumerClosed.toBooks := by
  cases caller with
  | revoked ps => exact .inr (.inl ⟨ps, rfl, rfl⟩)
  | close => exact .inr (.inr ⟨rfl, rfl⟩)
  | _ => exact .inl rfl

/-- **A commit that raises** changes nothing in the books, unless the partitions are lost or the
consumer is closed after it. -/
theorem commitRaises_cases (s : Source) (caller : Caller) :
    (s.commitRaises caller).toBooks = s.toBooks
      ∨ (∃ ps, caller = .revoked ps
        ∧ (s.commitRaises caller).toBooks = (s.partitionsLost ps).toBooks)
      ∨ caller = .close ∧ (s.commitRaises caller).toBooks = s.consumerClosed.toBooks := by
  cases caller with
  | revoked ps => exact .inr (.inl ⟨ps, rfl, rfl⟩)
  | close => exact .inr (.inr ⟨rfl, rfl⟩)
  | _ => exact .inl rfl

/-- **The messages that were dropped** are in the cursor, one after another. -/
theorem dropMessages_eq (messages : List Fetched) :
    s.dropMessages cfg messages = { s with
      cursor := messages.foldl
        (fun c f => c.markDeliveredMessage f.tp f.offset cfg.enableAutoCommit) s.cursor
      history := { s.history with
        settled := s.history.settled ++ messages.map Fetched.seq
        handled := s.history.handled + messages.length } } := by
  induction messages generalizing s with
  | nil =>
    show s = _
    rw [List.map_nil, List.append_nil]
    rfl
  | cons f messages ih =>
    have hsettled : (s.markDelivered cfg f).history.settled ++ messages.map Fetched.seq
        = s.history.settled ++ (f :: messages).map Fetched.seq := by
      show s.history.settled ++ [f.seq] ++ _ = _
      rw [List.append_assoc]
      rfl
    have hhandled : (s.markDelivered cfg f).history.handled + messages.length
        = s.history.handled + (f :: messages).length := by
      show s.history.handled + 1 + messages.length = s.history.handled + (messages.length + 1)
      omega
    show (s.markDelivered cfg f).dropMessages cfg messages = _
    rw [ih, hsettled, hhandled]
    rfl

/-- The acknowledged flag of a delivery says nothing about its message. -/
theorem messages_set {i : ℕ} {d : Delivery} (hd : s.deliveries[i]? = some d) :
    (s.deliveries.set i { d with acknowledged := true }).map Delivery.message
      = s.deliveries.map Delivery.message := by
  obtain ⟨hlt, rfl⟩ := List.getElem?_eq_some_iff.1 hd
  have hlt' : i < (s.deliveries.map Delivery.message).length := by
    rwa [List.length_map]
  have hmap : (s.deliveries.map Delivery.message)[i] = s.deliveries[i].message :=
    List.getElem_map _
  rw [List.map_set]
  show (s.deliveries.map Delivery.message).set i s.deliveries[i].message = _
  rw [← hmap, List.set_getElem_self]

/-- An acknowledgement marks the delivery, and what follows leaves the books alone. -/
theorem toBooks_acknowledgeDelivery (i : ℕ) (d : Delivery) (caller : Caller) :
    (s.acknowledgeDelivery cfg i d caller).toBooks
      = ({ s with deliveries := s.deliveries.set i { d with acknowledged := true } }.markDelivered
        cfg d.message).toBooks := toBooks_callCommit _

/-- It pauses nothing, and moves no position. -/
@[simp] theorem operator_acknowledgeDelivery (i : ℕ) (d : Delivery) (caller : Caller) :
    (s.acknowledgeDelivery cfg i d caller).operator = s.operator := by
  rw [toBooks_acknowledgeDelivery]
  rfl

@[simp] theorem operator_poisonCaptured : (s.poisonCaptured cfg).operator = s.operator := by
  unfold poisonCaptured
  dsimp only
  split
  · rw [toBooks_callCommit, dropMessages_eq]
    rfl
  · rfl

/-- What handling a message keeps, dropping messages keeps. -/
theorem dropMessages_keeps {P : Source → Prop}
    (h : ∀ s f, P s → P (s.markDelivered cfg f)) (hs : P s) (messages : List Fetched) :
    P (s.dropMessages cfg messages) := by
  induction messages generalizing s with
  | nil => exact hs
  | cons f messages ih => exact ih (h s f hs)

/-- Poison is of the batch at hand. -/
theorem subset_poisonMessages (s : Source) (cfg : SourceConfig) :
    s.poisonMessages cfg ⊆ s.batch := by
  unfold poisonMessages
  split
  · exact List.Subset.refl _
  · exact List.take_subset 1 s.batch

/-- **A seek** moves positions, and nothing else of the consumer. -/
theorem sought_seekTarget (assigned : Finset TopicPartition) (exact : Bool)
    (target : Σ _ : TopicPartition, ℤ) :
    Effect.Respects Operator.Sought (seekTarget assigned exact target) := by
  unfold seekTarget
  split
  · exact Effect.respects_pure _
  · exact Operator.sought_consumerSeek _ _

theorem sought_seekTargets (targets : OffsetMap) (exact : Bool) :
    Effect.Respects Operator.Sought (seekTargets targets exact) := by
  unfold seekTargets
  refine Effect.respects_get.bind (fun s => ?_)
  exact Effect.respects_forM (sought_seekTarget _ exact) _

/-- **The bootstrap of a stream** has gone this far: it drives the consumer and
marks the positioning, and where it leaves off the stream has no batch. -/
structure Bootstraps (s t : Source) : Prop where
  books : t.toBooks = { s.toBooks with
    operator := t.operator
    cursor := { s.cursor with positioningApplied := t.cursor.positioningApplied } }
  steady : s.operator.Steady t.operator
  pc : t.pc = .refreshing ∨ t.pc = .positioning ∨ t.pc = .polling 0 ∨ t.pc = .ended
  call : t.call = s.call

theorem bootstraps_startPolling (s : Source) : Bootstraps s s.startPolling := by
  have hsteady := ((Operator.unmoved_applyPauseState none) s.operator).finalState.toSteady
  unfold startPolling
  split
  · exact ⟨rfl, hsteady, .inr (.inr (.inr rfl)), rfl⟩
  · exact ⟨rfl, hsteady, .inr (.inr (.inl rfl)), rfl⟩

theorem bootstraps_seekAndStart (s : Source) : Bootstraps s s.seekAndStart := by
  have hsought := (sought_seekTargets s.cursor.positioningTargets s.cursor.hasExactStartOffsets
    s.operator).finalState.toSteady
  unfold seekAndStart
  dsimp only
  split
  · exact ⟨rfl, hsought, .inr (.inr (.inr rfl)), rfl⟩
  · have hstart := bootstraps_startPolling
      (s.operate (seekTargets s.cursor.positioningTargets
        s.cursor.hasExactStartOffsets)).markPositioningApplied
    exact ⟨hstart.books, trans_of Operator.Steady hsought hstart.steady, hstart.pc, hstart.call⟩

theorem bootstraps_applyInitialPositioning (s : Source) :
    Bootstraps s s.applyInitialPositioning := by
  unfold applyInitialPositioning
  split
  · exact bootstraps_startPolling s
  · split
    · have hstart := bootstraps_startPolling s.markPositioningApplied
      exact ⟨hstart.books, hstart.steady, hstart.pc, hstart.call⟩
    · split
      · exact bootstraps_seekAndStart s
      · exact ⟨rfl, ⟨rfl, rfl⟩, .inr (.inl rfl), rfl⟩

/-- What is bootstrapped once the controls know the assignment. -/
theorem Bootstraps.of_sync (h : Bootstraps s.syncAssignment t) : Bootstraps s t where
  books := h.books
  steady := ⟨h.steady.opened, h.steady.assignment⟩
  pc := h.pc
  call := h.call

/-- **A stream starts** with any of these. -/
theorem bootstraps_startStream (s : Source) : Bootstraps s.resetForStream s.startStream := by
  unfold startStream
  dsimp only
  split
  · exact ⟨rfl, ⟨rfl, rfl⟩, .inl rfl, rfl⟩
  · exact (bootstraps_applyInitialPositioning _).of_sync

/-- A batch that is received is what is to be delivered. -/
theorem receive_of_ne_nil {idlePolls : ℕ} {messages : List Fetched} (h : messages ≠ []) :
    s.receive cfg idlePolls messages = { s with
      operator := { s.operator with controls := { s.operator.controls with
        activeAssignment := (messages.map Fetched.tp).toFinset } }
      batch := messages
      pc := .deserializing } := by
  unfold receive
  rw [if_neg h]
  rfl

/-- An operator seek that is refused does nothing; one that is not empties the
cursor of what it tracked. -/
theorem finishSeekToOffsets_cases (s : Source) (offsets : OffsetMap) :
    s.finishSeekToOffsets offsets = s
      ∨ ∃ operator, s.operator.Sought operator ∧ s.finishSeekToOffsets offsets =
        { s with operator, cursor := s.cursor.applyExactPositioning offsets }.recordSeek
          offsets.keys.toFinset := by
  let seeks : OperatorM PUnit := offsets.entries.forM (fun e => Operator.consumerSeek e.1 e.2)
  have hseeks : Effect.Respects Operator.Sought seeks := by
    refine Effect.respects_forM (fun e => ?_) offsets.entries
    exact Operator.sought_consumerSeek e.1 e.2
  have hsought : s.operator.Sought (Effect.finalState seeks s.operator) :=
    (hseeks s.operator).finalState
  unfold finishSeekToOffsets
  split
  · exact .inl rfl
  · exact .inr ⟨Effect.finalState seeks s.operator, hsought, rfl⟩

/-- No partition moves where none is named. -/
theorem moveConsumer_empty (position : TopicPartition → ℤ) :
    s.moveConsumer ∅ position = s := by
  unfold moveConsumer
  simp only [Finset.notMem_empty, if_false]

/-- The targets of a seek are resolved, and the consumer is asked to seek. -/
theorem beginSeek_cases (s : Source) (partitions : Option (Finset TopicPartition)) :
    s.beginSeek partitions = s
      ∨ ∃ targets, s.beginSeek partitions = { s with calls := s.calls ++ [.seeking targets] } := by
  unfold beginSeek
  split
  · exact .inr ⟨_, rfl⟩
  · exact .inl rfl

/-! ## The commits a step issues -/

/-- Whether an event, if it can happen, issues a commit. -/
def issuesCommit (cfg : SourceConfig) (s : Source) : Event → Bool
  | .proceed => s.call.any (fun c => s.commitDue cfg c.2)
  | .commitNow => true
  | _ => false

/-- The commits that have been issued between two states. -/
def issued (s t : Source) : List CommitCall := t.commits.drop s.commits.length

/-- No commit is new where there are no more of them. -/
theorem issued_eq_nil (h : t.commits.length ≤ s.commits.length) : s.issued t = [] :=
  List.drop_of_length_le h

theorem issued_of_books {caller : Caller} (h : t.toBooks = (s.issueCommit caller).toBooks) :
    s.issued t
      = [⟨CommitRequest.of s.cursor.buildCommitOffsets, caller, s.history.handled⟩] := by
  have hcommits : t.commits = (s.issueCommit caller).commits := congrArg Books.commits h
  unfold issued
  rw [hcommits]
  exact List.drop_left

/-- A captured record commits nothing by itself. -/
theorem commits_poisonCaptured : (s.poisonCaptured cfg).commits = s.commits := by
  unfold poisonCaptured
  dsimp only
  split
  · rw [toBooks_callCommit, dropMessages_eq]
    rfl
  · rfl

/-- A commit that returns is not another one. -/
theorem commits_commitReturns (caller : Caller) :
    (s.commitReturns caller).commits = s.commits := by
  cases caller <;> rfl

theorem commits_commitRaises (caller : Caller) :
    (s.commitRaises caller).commits = s.commits := by
  cases caller <;> rfl

/-- A seek commits nothing when it ends. -/
theorem commits_finishSeekToOffsets (offsets : OffsetMap) :
    (s.finishSeekToOffsets offsets).commits = s.commits := by
  rcases finishSeekToOffsets_cases s offsets with heq | ⟨_, _, heq⟩
  · rw [heq]
  · rw [heq]
    rfl

theorem commits_beginSeek (partitions : Option (Finset TopicPartition)) :
    (s.beginSeek partitions).commits = s.commits := by
  rcases beginSeek_cases s partitions with heq | ⟨_, heq⟩ <;> rw [heq]

/-- **A step that issues a commit does nothing else.** It is one of the two that
may, of a source that is open. -/
theorem issued_step (h : s.step cfg retry e = some t) :
    s.issued t = [] ∨ s.issuesCommit cfg e = true ∧ s.operator.opened = true
      ∧ ∃ caller, t.toBooks = (s.issueCommit caller).toBooks := by
  have hsame : t.commits = s.commits → s.issued t = [] :=
    fun heq => issued_eq_nil (by rw [heq])
  have hboot : ∀ {u : Source}, Bootstraps u t → u.commits = s.commits → t.commits = s.commits :=
    fun hu heq => (congrArg Books.commits hu.books).trans heq
  have hprobe : ∀ {u v : Source} {message}, u.probe message = some v → v.commits = u.commits := by
    intro u v message hv
    obtain ⟨fs, hfs, _⟩ := probe_fetches hv
    rw [hfs.eq]
  cases step_reacts h with
  | @commits caller force hcall hdue =>
    refine .inr ⟨?_, ?_, caller, rfl⟩
    · show s.call.any _ = true
      rw [hcall]
      exact hdue
    · unfold commitDue at hdue
      simp only [Bool.and_eq_true] at hdue
      exact hdue.1.1.1
  | commitsNow _ hopened => exact .inr ⟨rfl, hopened, .commitNow, rfl⟩
  | idles _ h => exact .inl (hsame (congrArg Books.commits h.books))
  | errs _ _ _ _ _ _ hbooks h =>
    refine .inl (hsame ?_)
    rw [h.books, hbooks]
  | starts => exact .inl (hsame (hboot (bootstraps_startStream s) rfl))
  | refreshes _ hu =>
    exact .inl (hsame (hboot (bootstraps_applyInitialPositioning _).of_sync (hprobe hu)))
  | positions _ hu =>
    exact .inl (hsame (hboot (bootstraps_seekAndStart _).of_sync (hprobe hu)))
  | receives _ hfetch hne =>
    refine .inl (hsame ?_)
    rw [receive_of_ne_nil hne, (fetchAll_fetches hfetch).eq]
  | passesOver | acknowledges =>
    refine .inl (hsame ?_)
    rw [toBooks_acknowledgeDelivery]
    rfl
  | captures =>
    refine .inl (hsame ?_)
    rw [commits_poisonCaptured]
    rfl
  | drops _ _ _ _ hu =>
    refine .inl (hsame ?_)
    rw [commits_poisonCaptured]
    rcases hu with rfl | rfl <;> rfl
  | committed =>
    refine .inl (issued_eq_nil ?_)
    rw [commits_commitReturns]
    exact (List.eraseIdx_sublist _ _).length_le
  | commitFailed =>
    refine .inl (issued_eq_nil ?_)
    rw [commits_commitRaises]
    exact (List.eraseIdx_sublist _ _).length_le
  | beginsSeek => exact .inl (hsame (commits_beginSeek _))
  | seeks => exact .inl (hsame (commits_finishSeekToOffsets _))
  | probesForSeek _ hu =>
    have hcommits := hprobe hu
    exact .inl (hsame ((commits_finishSeekToOffsets _).trans hcommits))
  | probesToBeginSeek _ hu =>
    have hcommits := hprobe hu
    exact .inl (hsame ((commits_beginSeek _).trans hcommits))
  | _ => exact .inl (hsame rfl)

/-! ## Where the stream is -/

/-- **The stream stays where it was**, or it is between two records, at a commit,
or over. -/
structure Drifts (s t : Source) : Prop where
  pc : t.pc = s.pc ∨ t.pc = .advancing ∨ t.pc = .committing ∨ t.pc = .ended

namespace Drifts

/-- If it waits for a batch now, it waited for it before. -/
theorem awaitsBatch (h : Drifts s t) (ht : t.pc.awaitsBatch = true) :
    s.pc.awaitsBatch = true := by
  rcases h.pc with hpc | hpc | hpc | hpc <;> rw [hpc] at ht <;> first | exact ht | cases ht

theorem yielded {i : ℕ} (h : Drifts s t) (ht : t.pc = .yielded i) : s.pc = .yielded i := by
  rcases h.pc with hpc | hpc | hpc | hpc <;> rw [hpc] at ht <;> first | exact ht | cases ht

theorem of_eq (h : t.pc = s.pc) : Drifts s t := ⟨.inl h⟩

end Drifts

/-- A commit is called, and perhaps none is due. -/
theorem drifts_callCommit (s : Source) (caller : Caller) : Drifts s (s.callCommit cfg caller) := by
  unfold callCommit
  split
  · cases caller <;> first | exact ⟨.inl rfl⟩ | exact ⟨.inr (.inl rfl)⟩
  · exact ⟨.inl rfl⟩

theorem drifts_commitReturns (s : Source) (caller : Caller) :
    Drifts s (s.commitReturns caller) := by
  cases caller with
  | deliver => exact ⟨.inr (.inl rfl)⟩
  | handler => exact ⟨.inr (.inr (.inl rfl))⟩
  | final => exact ⟨.inr (.inr (.inr rfl))⟩
  | _ => exact ⟨.inl rfl⟩

/-- It raises, and the stream commits once more or is over. -/
theorem drifts_commitRaises (s : Source) (caller : Caller) : Drifts s (s.commitRaises caller) := by
  cases caller with
  | deliver | handler => exact ⟨.inr (.inr (.inl rfl))⟩
  | final => exact ⟨.inr (.inr (.inr rfl))⟩
  | _ => exact ⟨.inl rfl⟩

theorem drifts_issueCommit (s : Source) (caller : Caller) : Drifts s (s.issueCommit caller) := by
  cases caller <;> first | exact ⟨.inl rfl⟩ | exact ⟨.inr (.inr (.inl rfl))⟩

/-- A delivery is acknowledged, and a commit may be due. -/
theorem drifts_acknowledgeDelivery (s : Source) (i : ℕ) (d : Delivery) (caller : Caller) :
    Drifts s (s.acknowledgeDelivery cfg i d caller) := by
  unfold acknowledgeDelivery
  have h := @drifts_callCommit cfg
    ({ s with deliveries := s.deliveries.set i { d with acknowledged := true } }.markDelivered cfg
      d.message) caller
  exact ⟨h.pc⟩

theorem drifts_poisonCaptured (s : Source) : Drifts s (s.poisonCaptured cfg) := by
  unfold poisonCaptured
  dsimp only
  split
  · have h := @drifts_callCommit cfg ({ s.takePoison (s.poisonMessages cfg) with
      recordDropCount := s.recordDropCount + (s.poisonMessages cfg).length
      history := { (s.takePoison (s.poisonMessages cfg)).history with
        dropped := s.history.dropped ++ s.poisonMessages cfg } }.dropMessages cfg
          (s.poisonMessages cfg)) .deliver
    rw [dropMessages_eq] at h ⊢
    exact ⟨h.pc⟩
  · exact ⟨.inr (.inr (.inl rfl))⟩

theorem batch_commitReturns (caller : Caller) : (s.commitReturns caller).batch = s.batch := by
  cases caller <;> rfl

theorem batch_commitRaises (caller : Caller) : (s.commitRaises caller).batch = s.batch := by
  cases caller <;> rfl

theorem batch_acknowledgeDelivery (i : ℕ) (d : Delivery) (caller : Caller) :
    (s.acknowledgeDelivery cfg i d caller).batch = s.batch := by
  rw [toBooks_acknowledgeDelivery]
  rfl

/-- **A stream that is still to get a batch has none.** -/
theorem batch_of_awaitsBatch (hs : s.pc.awaitsBatch = true → s.batch = [])
    (h : s.step cfg retry e = some t) : t.pc.awaitsBatch = true → t.batch = [] := by
  have hboot : ∀ {u v : Source}, Bootstraps u v → u.batch = [] → v.batch = [] := by
    intro u v hv hu
    rw [hv.books]
    exact hu
  cases step_reacts h with
  | idles _ h =>
    intro ha
    rw [h.books]
    exact (h.awaits ha).elim hs id
  | starts => exact fun _ => hboot (bootstraps_startStream s) rfl
  | @refreshes _ u hpc hprobe =>
    obtain ⟨fs, hfs, _⟩ := probe_fetches hprobe
    have hu : u.batch = [] := by rw [hfs.eq]; exact hs (by rw [hpc]; rfl)
    exact fun _ => hboot (bootstraps_applyInitialPositioning _).of_sync hu
  | @positions _ u hpc hprobe =>
    obtain ⟨fs, hfs, _⟩ := probe_fetches hprobe
    have hu : u.batch = [] := by rw [hfs.eq]; exact hs (by rw [hpc]; rfl)
    exact fun _ => hboot (bootstraps_seekAndStart _).of_sync hu
  -- here a batch comes, and is awaited no longer
  | receives _ _ hne =>
    rw [receive_of_ne_nil hne]
    exact nofun
  | emits => exact nofun
  | goesOn => exact nofun
  | passesOver =>
    rw [batch_acknowledgeDelivery]
    intro ha
    have ha := (drifts_acknowledgeDelivery _ _ _ _).awaitsBatch ha
    exact hs ha
  | acknowledges =>
    rw [batch_acknowledgeDelivery]
    intro ha
    have ha := (drifts_acknowledgeDelivery _ _ _ _).awaitsBatch ha
    exact hs ha
  | @errs _ u _ _ _ _ hupc _ _ _ h =>
    intro ha
    rcases h.awaits ha with ha | hbatch
    · rw [hupc] at ha
      cases ha
    · rw [h.books]
      exact hbatch
  | captures _ hpc =>
    intro ha
    have ha := (drifts_poisonCaptured _).awaitsBatch ha
    have hs : s.pc.awaitsBatch = true := ha
    rw [hpc] at hs
    cases hs
  | drops _ _ hpc _ hu =>
    intro ha
    have ha := (drifts_poisonCaptured _).awaitsBatch ha
    have hu : s.pc.awaitsBatch = true := by rcases hu with rfl | rfl <;> exact ha
    rw [hpc] at hu
    cases hu
  | captureFails => exact nofun
  | commits =>
    exact fun ha => hs ((drifts_issueCommit _ _).awaitsBatch ha)
  | commitsNow => exact hs
  | committed =>
    rw [batch_commitReturns]
    intro ha
    have ha := (drifts_commitReturns _ _).awaitsBatch ha
    exact hs ha
  | commitFailed =>
    rw [batch_commitRaises]
    intro ha
    have ha := (drifts_commitRaises _ _).awaitsBatch ha
    exact hs ha
  | beginsSeek =>
    rcases beginSeek_cases s.syncAssignment _ with heq | ⟨_, heq⟩ <;> rw [heq] <;> exact hs
  | seeks =>
    rcases finishSeekToOffsets_cases s.syncAssignment _ with heq | ⟨_, _, heq⟩ <;> rw [heq] <;>
      exact hs
  | @probesForSeek _ _ offsets u _ hprobe =>
    obtain ⟨fs, hfs, _⟩ := probe_fetches hprobe
    rcases finishSeekToOffsets_cases u.syncAssignment offsets with heq | ⟨_, _, heq⟩ <;>
      rw [heq] <;> rw [hfs.eq] <;> exact hs
  | @probesToBeginSeek _ _ partitions u _ hprobe =>
    obtain ⟨fs, hfs, _⟩ := probe_fetches hprobe
    rcases beginSeek_cases u.syncAssignment partitions with heq | ⟨_, heq⟩ <;>
      rw [heq] <;> rw [hfs.eq] <;> exact hs
  | _ => exact hs

/-- **A record is in the pipeline's hands** because it was, or because it has just
been handed out. -/
theorem yielded_step {i : ℕ} (h : s.step cfg retry e = some t) (hi : t.pc = .yielded i) :
    s.pc = .yielded i
      ∨ i = s.deliveries.length ∧ ∃ f rest, s.batch = f :: rest ∧ t = s.emitRecord f rest := by
  have hboot : ∀ {u : Source}, Bootstraps u t → s.pc = .yielded i := by
    intro u hu
    rcases hu.pc with hpc | hpc | hpc | hpc <;> rw [hpc] at hi <;> cases hi
  cases step_reacts h with
  | idles _ h => exact .inl (h.yields i hi)
  | starts => exact .inl (hboot (bootstraps_startStream s))
  | refreshes => exact .inl (hboot (bootstraps_applyInitialPositioning _))
  | positions => exact .inl (hboot (bootstraps_seekAndStart _))
  | receives _ _ hne =>
    rw [receive_of_ne_nil hne] at hi
    cases hi
  | @emits _ f rest _ _ _ hbatch =>
    cases hi
    exact .inr ⟨rfl, f, rest, hbatch, rfl⟩
  | goesOn | captureFails => cases hi
  | passesOver =>
    have hi := (drifts_acknowledgeDelivery _ _ _ _).yielded hi
    exact .inl hi
  | acknowledges => exact .inl ((drifts_acknowledgeDelivery _ _ _ _).yielded hi)
  | @errs _ u _ _ _ _ hupc _ _ _ h =>
    have hi := h.yields i hi
    rw [hupc] at hi
    cases hi
  | captures _ hpc =>
    have hi := (drifts_poisonCaptured _).yielded hi
    exact .inl hi
  | drops _ _ _ _ hu =>
    have hi := (drifts_poisonCaptured _).yielded hi
    rcases hu with rfl | rfl <;> exact .inl hi
  | commits =>
    have hi := (drifts_issueCommit _ _).yielded hi
    exact .inl hi
  | commitsNow => exact .inl ((drifts_issueCommit _ _).yielded hi)
  | committed =>
    have hi := (drifts_commitReturns _ _).yielded hi
    exact .inl hi
  | commitFailed =>
    have hi := (drifts_commitRaises _ _).yielded hi
    exact .inl hi
  | beginsSeek =>
    rcases beginSeek_cases s.syncAssignment _ with heq | ⟨_, heq⟩ <;> rw [heq] at hi <;>
      exact .inl hi
  | seeks =>
    rcases finishSeekToOffsets_cases s.syncAssignment _ with heq | ⟨_, _, heq⟩ <;>
      rw [heq] at hi <;> exact .inl hi
  | @probesForSeek _ _ offsets u _ hprobe =>
    obtain ⟨fs, hfs, _⟩ := probe_fetches hprobe
    rcases finishSeekToOffsets_cases u.syncAssignment offsets with heq | ⟨_, _, heq⟩ <;>
      rw [heq, hfs.eq] at hi <;> exact .inl hi
  | @probesToBeginSeek _ _ partitions u _ hprobe =>
    obtain ⟨fs, hfs, _⟩ := probe_fetches hprobe
    rcases beginSeek_cases u.syncAssignment partitions with heq | ⟨_, heq⟩ <;>
      rw [heq, hfs.eq] at hi <;> exact .inl hi
  | _ => exact .inl hi

end Source

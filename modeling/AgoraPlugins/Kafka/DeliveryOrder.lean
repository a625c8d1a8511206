import AgoraPlugins.Kafka.Consumption

/-!
# In what order messages are handed out

What the source does with a message depends on who runs when: the stream may be waiting for a
commit, or for the capture of poison, while the pipeline acknowledges an older record, partitions
come and go, an operator seeks. But only the stream takes messages out of the batch, from its
front, and a batch is received only when the last one is gone. So the messages that are handed out
come in the order in which they were fetched, each once, and none is handed out that was handled
as poison (`HandedInOrder`).

Offsets follow where the consumer is not taken back. A partition that is assigned, sought or opened
at a position before a message it has returned returns it again, and then it is handed out again;
in a run in which that does not happen the records of the partition are handed out by increasing
offset, across streams, sessions and rebalances (`rising_of_ahead`).
-/

open Machine

namespace Source

variable {cfg : SourceConfig} {retry : KafkaSink.RetryAsync DLQRecord} {s t u : Source}
  {e : Event}

/-! ## What a step does to the messages -/

/-- **Messages have been fetched**, each of an assigned partition from its position on. -/
structure Grows (s : Source) (fs : List Fetched) (t : Source) : Prop where
  returned : t.history.returned = s.history.returned ++ fs
  seqs : fs.map Fetched.seq = List.range' s.history.returned.length fs.length
  assigned : ∀ f ∈ fs, f.tp ∈ s.operator.consumer.assignment
  position : ∀ f ∈ fs, s.operator.consumer.position f.tp ≤ f.offset
  increasing : fs.Pairwise (fun f g => f.tp = g.tp → f.offset < g.offset)

theorem Fetches.grows {fs : List Fetched} (h : Fetches s fs t) : Grows s fs t :=
  ⟨h.returned, h.seqs, h.assigned, fun f hf => (h.bounds f hf).1, h.increasing⟩

theorem grows_nil (h : t.history.returned = s.history.returned) : Grows s [] t :=
  ⟨by rw [h, List.append_nil], rfl, nofun, nofun, .nil⟩

/-- **What becomes of the messages in a step.** -/
inductive Moves (s t : Source) : Prop where
  /-- some may be fetched, and nobody keeps them -/
  | fetches {fs} (h : Grows s fs t) (hemitted : t.history.emitted = s.history.emitted)
      (hpoisoned : t.history.poisoned = s.history.poisoned) (hbatch : t.batch = s.batch)
  /-- they are fetched as the next batch -/
  | receives {fs} (h : Grows s fs t) (hemitted : t.history.emitted = s.history.emitted)
      (hpoisoned : t.history.poisoned = s.history.poisoned) (hempty : s.batch = [])
      (hbatch : t.batch = fs)
  /-- the first of the batch is handed out -/
  | emits {f} (hreturned : t.history.returned = s.history.returned)
      (hemitted : t.history.emitted = s.history.emitted ++ [f.seq])
      (hpoisoned : t.history.poisoned = s.history.poisoned) (hbatch : s.batch = f :: t.batch)
  /-- the first ones of it are handled as poison -/
  | poisons {fs} (hreturned : t.history.returned = s.history.returned)
      (hemitted : t.history.emitted = s.history.emitted)
      (hpoisoned : t.history.poisoned = s.history.poisoned ++ fs.map Fetched.seq)
      (hbatch : s.batch = fs ++ t.batch)
  /-- the batch is forgotten -/
  | resets (hreturned : t.history.returned = s.history.returned)
      (hemitted : t.history.emitted = s.history.emitted)
      (hpoisoned : t.history.poisoned = s.history.poisoned) (hbatch : t.batch = [])

theorem SameMessages.moves (h : SameMessages s t) : Moves s t :=
  .fetches (grows_nil h.returned) h.emitted h.poisoned h.batch

/-- A probe's answer is fetched, whatever is done then. -/
theorem moves_probe {message : Option ConsumerRecord} {v : Source}
    (hs : SameMessages s v) (hc : v.operator = s.operator) (hprobe : v.probe message = some u)
    (h : SameMessages u t) : Moves s t := by
  obtain ⟨fs, hfs, _⟩ := probe_fetches hprobe
  have hemitted : u.history.emitted = v.history.emitted := by rw [hfs.eq]
  have hpoisoned : u.history.poisoned = v.history.poisoned := by rw [hfs.eq]
  have hbatch : u.batch = v.batch := by rw [hfs.eq]
  have hseqs := hfs.seqs
  have hassigned := hfs.assigned
  have hposition := hfs.grows.position
  rw [hs.returned] at hseqs
  rw [hc] at hassigned hposition
  refine .fetches ⟨?_, hseqs, hassigned, hposition, hfs.increasing⟩ ?_ ?_ ?_
  · rw [h.returned, hfs.returned, hs.returned]
  · rw [h.emitted, hemitted, hs.emitted]
  · rw [h.poisoned, hpoisoned, hs.poisoned]
  · rw [h.batch, hbatch, hs.batch]

/-- The poison is the front of the batch. -/
theorem moves_poisonCaptured (hs : SameMessages s u) : Moves s (u.poisonCaptured cfg) := by
  have htaken := sameMessages_poisonCaptured u cfg
  have hpoisoned : (u.poisonCaptured cfg).history.poisoned
      = s.history.poisoned ++ (u.poisonMessages cfg).map Fetched.seq := by
    rw [htaken.poisoned, ← hs.poisoned]
    rfl
  refine .poisons ?_ ?_ hpoisoned ?_
  · rw [htaken.returned]
    exact hs.returned
  · rw [htaken.emitted]
    exact hs.emitted
  · rw [htaken.batch, ← hs.batch]
    exact (poisonMessages_append u cfg).symm

/-- **Every step is one of these.** -/
theorem moves_step (hawaits : s.pc.awaitsBatch = true → s.batch = [])
    (h : s.step cfg retry e = some t) : Moves s t := by
  have hsame : ∀ {u : Source}, SameMessages s u → Moves s u := fun hu => hu.moves
  cases step_reacts h with
  | idles _ h => exact hsame (.of_books h.books)
  | errs _ _ _ _ _ _ hbooks h =>
    exact hsame ⟨by rw [h.books, hbooks], by rw [h.books, hbooks], by rw [h.books, hbooks],
      by rw [h.books, hbooks]⟩
  | starts =>
    have hstart := sameMessages_of_bootstraps (bootstraps_startStream s)
    exact .resets hstart.returned hstart.emitted hstart.poisoned hstart.batch
  | refreshes _ hprobe =>
    exact moves_probe ⟨rfl, rfl, rfl, rfl⟩ rfl hprobe
      (sameMessages_of_bootstraps (bootstraps_applyInitialPositioning _).of_sync)
  | positions _ hprobe =>
    exact moves_probe ⟨rfl, rfl, rfl, rfl⟩ rfl hprobe
      (sameMessages_of_bootstraps (bootstraps_seekAndStart _).of_sync)
  | @receives _ idlePolls messages u hpc hfetch hne =>
    have hfs := fetchAll_fetches hfetch
    rw [receive_of_ne_nil hne]
    refine @Moves.receives _ _ messages ⟨hfs.returned, hfs.seqs, hfs.assigned, hfs.grows.position,
      hfs.increasing⟩ ?_ ?_ (hawaits (by rw [hpc]; rfl)) rfl
    · rw [hfs.eq]
    · rw [hfs.eq]
  | emits _ _ _ hbatch => exact .emits rfl rfl rfl hbatch
  | passesOver =>
    refine hsame (.acknowledgeDelivery ?_ _ _ _)
    exact ⟨rfl, rfl, rfl, rfl⟩
  | acknowledges =>
    refine hsame (.acknowledgeDelivery ?_ _ _ _)
    exact ⟨rfl, rfl, rfl, rfl⟩
  | captures => exact moves_poisonCaptured ⟨rfl, rfl, rfl, rfl⟩
  | drops _ _ _ _ hu =>
    rcases hu with rfl | rfl <;> exact moves_poisonCaptured ⟨rfl, rfl, rfl, rfl⟩
  | committed =>
    refine hsame (.commitReturns ?_ _)
    exact ⟨rfl, rfl, rfl, rfl⟩
  | commitFailed =>
    refine hsame (.commitRaises ?_ _)
    exact ⟨rfl, rfl, rfl, rfl⟩
  | beginsSeek => exact hsame (.trans sameMessages_syncAssignment (sameMessages_beginSeek _))
  | seeks => exact hsame (.trans sameMessages_syncAssignment (sameMessages_finishSeekToOffsets _))
  | probesForSeek _ hprobe =>
    refine moves_probe ?_ ?_ hprobe
      (.trans sameMessages_syncAssignment (sameMessages_finishSeekToOffsets _))
    · exact ⟨rfl, rfl, rfl, rfl⟩
    · rfl
  | probesToBeginSeek _ hprobe =>
    refine moves_probe ?_ ?_ hprobe
      (.trans sameMessages_syncAssignment (sameMessages_beginSeek _))
    · exact ⟨rfl, rfl, rfl, rfl⟩
    · rfl
  | _ => exact hsame ⟨rfl, rfl, rfl, rfl⟩

/-! ## The order of messages -/

/-- **What is handed out, and what is handled as poison**, was fetched in that order, each message
once, and no message is both. -/
structure HandedInOrder (s : Source) : Prop where
  emitted : s.history.emitted.Pairwise (· < ·)
  poisoned : s.history.poisoned.Pairwise (· < ·)
  apart : ∀ n ∈ s.history.emitted, n ∉ s.history.poisoned
  fetched : ∀ n ∈ s.history.emitted ++ s.history.poisoned, n < s.history.returned.length

/-- **The batch comes after it**, in order too. -/
structure Queued (s : Source) : Prop where
  inOrder : s.HandedInOrder
  batch : (s.batch.map Fetched.seq).Pairwise (· < ·)
  later : ∀ n ∈ s.history.emitted ++ s.history.poisoned, ∀ f ∈ s.batch, n < f.seq
  bound : ∀ f ∈ s.batch, f.seq < s.history.returned.length
  awaits : s.pc.awaitsBatch = true → s.batch = []

theorem Moves.length_le (h : Moves s t) :
    s.history.returned.length ≤ t.history.returned.length := by
  cases h with
  | fetches h | receives h =>
    rw [h.returned, List.length_append]
    exact Nat.le_add_right _ _
  | emits hreturned | poisons hreturned | resets hreturned => rw [hreturned]

/-- Numbers that come after those of two lists, put behind one of them. -/
theorem pairwise_append_later {xs ys ns : List ℕ} (hxs : xs.Pairwise (· < ·))
    (hns : ns.Pairwise (· < ·)) (hlater : ∀ n ∈ xs ++ ys, ∀ m ∈ ns, n < m)
    (hapart : ∀ n ∈ xs, n ∉ ys) :
    (xs ++ ns).Pairwise (· < ·) ∧ ∀ n ∈ xs ++ ns, n ∉ ys := by
  refine ⟨List.pairwise_append.2 ⟨hxs, hns, fun n hn => hlater n (List.mem_append_left _ hn)⟩,
    fun n hn hmem => ?_⟩
  rcases List.mem_append.1 hn with hn | hn
  · exact hapart n hn hmem
  · exact Nat.lt_irrefl _ (hlater n (List.mem_append_right _ hmem) n hn)

namespace Queued

theorem lt_of_mem {n : ℕ} (hs : Queued s) (hn : n ∈ s.history.emitted ++ s.history.poisoned) :
    n < s.history.returned.length := hs.inOrder.fetched n hn

section Front

variable {front : List Fetched} (hs : Queued s) (hbatch : s.batch = front ++ t.batch)
include hs hbatch

/-- **The front of the batch** is in order, and comes after all that have left the batch. -/
theorem of_front : (front.map Fetched.seq).Pairwise (· < ·)
    ∧ ∀ n ∈ s.history.emitted ++ s.history.poisoned, ∀ m ∈ front.map Fetched.seq, n < m := by
  have hpairwise := hs.batch
  rw [hbatch, List.map_append, List.pairwise_append] at hpairwise
  refine ⟨hpairwise.1, fun n hn m hm => ?_⟩
  obtain ⟨f, hf, rfl⟩ := List.mem_map.1 hm
  refine hs.later n hn f ?_
  rw [hbatch]
  exact List.mem_append_left _ hf

/-- **When the front leaves the batch**, the rest comes after it. -/
theorem leaves (hreturned : t.history.returned = s.history.returned)
    (hemitted : t.history.emitted.Pairwise (· < ·))
    (hpoisoned : t.history.poisoned.Pairwise (· < ·))
    (hapart : ∀ n ∈ t.history.emitted, n ∉ t.history.poisoned)
    (hmem : ∀ n ∈ t.history.emitted ++ t.history.poisoned,
      n ∈ s.history.emitted ++ s.history.poisoned ∨ n ∈ front.map Fetched.seq)
    (hawaits : t.pc.awaitsBatch = true → t.batch = []) : Queued t := by
  have hpairwise := hs.batch
  rw [hbatch, List.map_append, List.pairwise_append] at hpairwise
  obtain ⟨_, hrest, hbetween⟩ := hpairwise
  have hlater := hs.later
  have hbound := hs.bound
  rw [hbatch] at hlater hbound
  rw [← hreturned] at hbound
  refine ⟨⟨hemitted, hpoisoned, hapart, fun n hn => ?_⟩, hrest, fun n hn g hg => ?_,
    fun g hg => hbound g (List.mem_append_right _ hg), hawaits⟩
  · rcases hmem n hn with hn | hn
    · rw [hreturned]
      exact hs.lt_of_mem hn
    · obtain ⟨f, hf, rfl⟩ := List.mem_map.1 hn
      exact hbound f (List.mem_append_left _ hf)
  · rcases hmem n hn with hn | hn
    · exact hlater n hn g (List.mem_append_right _ hg)
    · exact hbetween n hn g.seq (List.mem_map_of_mem hg)

end Front

/-- **One step keeps the order.** -/
theorem step (hs : Queued s) (h : s.step cfg retry e = some t) : Queued t := by
  have hawaits := batch_of_awaitsBatch hs.awaits h
  have hmoves := moves_step hs.awaits h
  have hlength := hmoves.length_le
  have hbound : ∀ f ∈ s.batch, f.seq < t.history.returned.length :=
    fun f hf => Nat.lt_of_lt_of_le (hs.bound f hf) hlength
  have hsame : t.history.emitted = s.history.emitted → t.history.poisoned = s.history.poisoned →
      HandedInOrder t := by
    intro he hp
    refine ⟨he ▸ hs.inOrder.emitted, hp ▸ hs.inOrder.poisoned, ?_, ?_⟩
    · rw [he, hp]
      exact hs.inOrder.apart
    · rw [he, hp]
      exact fun n hn => Nat.lt_of_lt_of_le (hs.lt_of_mem hn) hlength
  cases hmoves with
  | fetches h he hp hb =>
    refine ⟨hsame he hp, hb ▸ hs.batch, ?_, hb ▸ hbound, hawaits⟩
    rw [he, hp, hb]
    exact hs.later
  | @receives fs h he hp _ hb =>
    have hseq : ∀ f ∈ fs, s.history.returned.length ≤ f.seq
        ∧ f.seq < s.history.returned.length + fs.length := by
      intro f hf
      have hmem : f.seq ∈ fs.map Fetched.seq := List.mem_map_of_mem hf
      rw [h.seqs, List.mem_range'_1] at hmem
      exact hmem
    refine ⟨hsame he hp, ?_, fun n hn f hf => ?_, fun f hf => ?_, hawaits⟩
    · rw [hb, h.seqs]
      exact List.pairwise_lt_range'
    · rw [he, hp] at hn
      exact Nat.lt_of_lt_of_le (hs.lt_of_mem hn) (hseq f (hb ▸ hf)).1
    · rw [h.returned, List.length_append]
      exact (hseq f (hb ▸ hf)).2
  | @emits f hr he hp hb =>
    have hb : s.batch = [f] ++ t.batch := hb
    have hfront := hs.of_front hb
    obtain ⟨hemitted, hapart⟩ := pairwise_append_later hs.inOrder.emitted hfront.1 hfront.2
      hs.inOrder.apart
    refine hs.leaves hb hr ?_ (hp ▸ hs.inOrder.poisoned) ?_ (fun n hn => ?_) hawaits
    · rw [he]
      exact hemitted
    · rw [he, hp]
      exact hapart
    · rw [he, hp] at hn
      simpa [or_assoc, or_comm, or_left_comm] using hn
  | @poisons fs hr he hp hb =>
    -- the same with the two lists in each other's place
    have hfront := hs.of_front hb
    have hlater : ∀ n ∈ s.history.poisoned ++ s.history.emitted, ∀ m ∈ fs.map Fetched.seq, n < m :=
      fun n hn => hfront.2 n (List.mem_append.2 (List.mem_append.1 hn).symm)
    obtain ⟨hpoisoned, hapart⟩ := pairwise_append_later hs.inOrder.poisoned hfront.1 hlater
      (fun n hn hmem => hs.inOrder.apart n hmem hn)
    refine hs.leaves hb hr (he ▸ hs.inOrder.emitted) ?_ (fun n hn hmem => ?_) (fun n hn => ?_)
      hawaits
    · rw [hp]
      exact hpoisoned
    · rw [he] at hn
      rw [hp] at hmem
      exact hapart n hmem hn
    · rw [he, hp, ← List.append_assoc] at hn
      exact List.mem_append.1 hn
  | resets hr he hp hb =>
    refine ⟨hsame he hp, ?_, ?_, ?_, hawaits⟩ <;> rw [hb]
    · exact .nil
    · exact fun _ _ => nofun
    · exact nofun

end Queued

theorem queued_new (cfg : SourceConfig) : Queued (Source.new cfg) where
  inOrder := ⟨.nil, .nil, nofun, nofun⟩
  batch := .nil
  later := nofun
  bound := nofun
  awaits := fun _ => rfl

/-! ## Offsets -/

/-- **Where a partition is assigned, it is not back** at a message that was returned from it. -/
def Ahead (tp : TopicPartition) (s : Source) : Prop :=
  tp ∈ s.operator.consumer.assignment → ∀ f ∈ s.history.returned, f.tp = tp →
    f.offset < s.operator.consumer.position tp

instance (tp : TopicPartition) : DecidablePred (Ahead tp) := fun _ =>
  inferInstanceAs (Decidable (_ → ∀ _ ∈ _, _))

/-- The messages of a partition among these, which are named by their `seq`. -/
def messagesOf (s : Source) (tp : TopicPartition) (ns : List ℕ) : List Fetched :=
  (ns.filterMap (fun n => s.history.returned[n]?)).filter (fun f => f.tp = tp)

/-- **The records of a partition are handed out by increasing offset**, and so are those that are
handled as poison. -/
def Rising (tp : TopicPartition) (s : Source) : Prop :=
  (s.messagesOf tp s.history.emitted).Pairwise (fun f g => f.offset < g.offset)
    ∧ (s.messagesOf tp s.history.poisoned).Pairwise (fun f g => f.offset < g.offset)

instance (tp : TopicPartition) : DecidablePred (Rising tp) := fun _ =>
  inferInstanceAs (Decidable (_ ∧ _))

/-- The messages of a partition are returned by increasing offset. -/
def Advances (tp : TopicPartition) (s : Source) : Prop :=
  s.history.returned.Pairwise (fun f g => f.tp = tp → g.tp = tp → f.offset < g.offset)

theorem advances_step {tp : TopicPartition} (hs : Advances tp s) (ha : Ahead tp s)
    (h : Moves s t) : Advances tp t := by
  have hgrows : ∀ {fs : List Fetched}, Grows s fs t → Advances tp t := by
    intro fs h
    unfold Advances
    rw [h.returned]
    refine List.pairwise_append.2 ⟨hs, ?_, fun f hf g hg hftp hgtp => ?_⟩
    · exact h.increasing.imp (fun hfg hftp hgtp => hfg (hftp.trans hgtp.symm))
    · have hassigned := h.assigned g hg
      have hposition := h.position g hg
      rw [hgtp] at hassigned hposition
      exact Int.lt_of_lt_of_le (ha hassigned f hf hftp) hposition
  cases h with
  | fetches h | receives h => exact hgrows h
  | emits hreturned | poisons hreturned | resets hreturned => exact hgrows (grows_nil hreturned)

/-- Messages taken in the order they were returned in have increasing offsets. -/
theorem pairwise_messagesOf {tp : TopicPartition} (hs : Advances tp s) {ns : List ℕ}
    (hns : ns.Pairwise (· < ·)) :
    (s.messagesOf tp ns).Pairwise (fun f g => f.offset < g.offset) := by
  unfold messagesOf
  refine List.pairwise_filter.2 ?_
  refine List.pairwise_filterMap.2 (hns.imp (fun {n m} hnm f hf g hg hftp hgtp => ?_))
  obtain ⟨hn, rfl⟩ := List.getElem?_eq_some_iff.1 hf
  obtain ⟨hm, rfl⟩ := List.getElem?_eq_some_iff.1 hg
  exact List.pairwise_iff_getElem.1 hs n m hn hm hnm (of_decide_eq_true hftp)
    (of_decide_eq_true hgtp)

/-! ## Runs -/

/-- **In every run** messages are handed out in the order in which they were fetched, each once and
none that was handled as poison; and for a partition that is never taken back behind a message it
has returned, by increasing offset. -/
theorem rising_of_ahead (cfg : SourceConfig) (retry : KafkaSink.RetryAsync DLQRecord)
    (es : List Event) :
    AllStates (step cfg retry) HandedInOrder (Source.new cfg) es
      ∧ ∀ tp, AllStates (step cfg retry) (Ahead tp) (Source.new cfg) es →
        AllStates (step cfg retry) (Rising tp) (Source.new cfg) es := by
  have hqueued : AllStates (step cfg retry) Queued (Source.new cfg) es :=
    allStates_of_invariant (fun s e t hs h => Queued.step hs h) (queued_new cfg) es
  refine ⟨hqueued.mono (fun _ hs => hs.inOrder), fun tp hahead => ?_⟩
  have hadvances : AllStates (step cfg retry) (fun s => Queued s ∧ Advances tp s)
      (Source.new cfg) es := by
    refine allStates_of_step (G := fun s _ t => Ahead tp s ∧ Ahead tp t) ?_
      ⟨queued_new cfg, .nil⟩ hahead.steps
    rintro s e t ⟨hs, hadv⟩ ⟨ha, _⟩ h
    exact ⟨hs.step h, advances_step hadv ha (moves_step hs.awaits h)⟩
  refine hadvances.mono (fun s hs => ?_)
  exact ⟨pairwise_messagesOf hs.2 hs.1.inOrder.emitted,
    pairwise_messagesOf hs.2 hs.1.inOrder.poisoned⟩

/-- A source with one partition, which reads three records of it: the second is poison. -/
def poisonBetween : SourceConfig where
  assignments := {⟨"orders", 0⟩}
  poison := {
    policy := .logAndContinue
    sink_of_captures := fun h => absurd h Bool.false_ne_true }

/-- The partition is taken away after that, and assigned again from this position. -/
def reassignedAt (position : ℤ) : List Event :=
  [.open (fun _ => 5), .stream,
    .polled [{ tp := ⟨"orders", 0⟩, offset := 5 }, { tp := ⟨"orders", 0⟩, offset := 6 },
      { tp := ⟨"orders", 0⟩, offset := 9 }],
    .deserialized, .next, .proceed, .proceed, .malformed (.exception "ValueError" ""), .proceed,
    .proceed, .deserialized, .next, .proceed, .proceed,
    .revoked {⟨"orders", 0⟩}, .proceed, .committed 0,
    .assigned {⟨"orders", 0⟩} (fun _ => position),
    .polled [{ tp := ⟨"orders", 0⟩, offset := position }], .deserialized]

/-- From a position after all that was handed out, the order is kept. -/
theorem rising_reassignedAt_ten :
    AllStates (step poisonBetween (KafkaSink.RetryAsync.upTo DLQRecord 1))
      (Rising ⟨"orders", 0⟩) (Source.new poisonBetween) (reassignedAt 10) := by
  refine (rising_of_ahead poisonBetween (KafkaSink.RetryAsync.upTo DLQRecord 1)
    (reassignedAt 10)).2 ⟨"orders", 0⟩ ?_
  decide

/-- From an earlier position records are handed out again. -/
example : ¬ AllStates (step poisonBetween (KafkaSink.RetryAsync.upTo DLQRecord 1))
    (Rising ⟨"orders", 0⟩) (Source.new poisonBetween) (reassignedAt 5) := by
  decide

end Source

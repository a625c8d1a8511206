import AgoraPlugins.Kafka.StreamTurn

/-!
# What becomes of a message

A message that `getmany` returns is not returned again: the consumer has moved
past it. So the source must do something with each, and the law is that it does
– hands it to the pipeline, handles it as poison, or has it in the batch that is
being delivered (`NoLoss`).

The poll loop keeps the law. But the source also polls to get an assignment: a
stream that starts with nothing assigned, or without a partition it is to be
positioned in, and an operator's seek, call `getmany(timeout_ms=0,
max_records=1)` and drop the answer. Exactly the probes that return a message
lose one. The other loss is the end of a stream in the middle of a batch, whose
rest goes with it.
-/

open Machine

/-- What a probe has been answered. -/
def Event.probe : Event → Option ConsumerRecord
  | .probed message | .operatorProbed _ message => message
  | _ => none

namespace Source

variable {cfg : SourceConfig} {retry : KafkaSink.RetryAsync DLQRecord} {s t u : Source}
  {e : Event}

/-- What is held in the batch that is being delivered. A stream that has ended or
is on its way out has let go of it. -/
def held (s : Source) : List Fetched := if s.reads then s.batch else []

/-- **No message that was returned is lost.** -/
def NoLoss (s : Source) : Prop :=
  ∀ f ∈ s.history.returned, f.seq ∈ s.history.emitted ∨ f.seq ∈ s.history.poisoned
    ∨ f.seq ∈ s.held.map Fetched.seq

instance : DecidablePred NoLoss := fun _ => inferInstanceAs (Decidable (∀ _ ∈ _, _))

/-- **What must be so before a step** for no message to be lost by it: a probe is
answered with none, and the stream is not left with messages in its batch. -/
def KeepsMessages (cfg : SourceConfig) (retry : KafkaSink.RetryAsync DLQRecord) (s : Source)
    (e : Event) : Prop :=
  e.probe = none ∧ (s.leaves cfg retry e = true → s.leaving cfg retry e = [])

instance (s : Source) (e : Event) : Decidable (KeepsMessages cfg retry s e) :=
  inferInstanceAs (Decidable (_ ∧ _))

/-- Every message that was returned has been handed out or handled, or is left of
a batch. -/
def Conserved (s : Source) : Prop :=
  ∀ f ∈ s.history.returned, f.seq ∈ s.history.emitted ∨ f.seq ∈ s.history.poisoned
    ∨ f.seq ∈ s.batch.map Fetched.seq

/-- Messages are numbered as they are returned, what is done with one is done
with a message there has been, and the batch is what nothing has been done with
yet. -/
structure Tidy (s : Source) : Prop where
  seqs : s.history.returned.map Fetched.seq = List.range s.history.returned.length
  emitted : ∀ n ∈ s.history.emitted, n < s.history.returned.length
  poisoned : ∀ n ∈ s.history.poisoned, n < s.history.returned.length
  batch : ∀ f ∈ s.batch, f ∈ s.history.returned ∧ f.seq ∉ s.history.emitted
    ∧ f.seq ∉ s.history.poisoned
  nodup : (s.batch.map Fetched.seq).Nodup

/-- **Nothing has become of any message**, and none has been returned. -/
structure SameMessages (s t : Source) : Prop where
  returned : t.history.returned = s.history.returned
  emitted : t.history.emitted = s.history.emitted
  poisoned : t.history.poisoned = s.history.poisoned
  batch : t.batch = s.batch

theorem SameMessages.of_books (h : t.toBooks = s.toBooks) : SameMessages s t := by
  constructor <;> rw [h]

theorem SameMessages.trans (h : SameMessages s t) (h' : SameMessages t u) : SameMessages s u :=
  ⟨h'.returned.trans h.returned, h'.emitted.trans h.emitted, h'.poisoned.trans h.poisoned,
    h'.batch.trans h.batch⟩

theorem SameMessages.tidy (h : SameMessages s t) (hs : Tidy s) : Tidy t := by
  constructor
  · rw [h.returned]
    exact hs.seqs
  · rw [h.emitted, h.returned]
    exact hs.emitted
  · rw [h.poisoned, h.returned]
    exact hs.poisoned
  · rw [h.batch, h.returned, h.emitted, h.poisoned]
    exact hs.batch
  · rw [h.batch]
    exact hs.nodup

theorem SameMessages.conserved_iff (h : SameMessages s t) : Conserved t ↔ Conserved s := by
  unfold Conserved
  rw [h.returned, h.emitted, h.poisoned, h.batch]

/-- **A message is lost where it is left of a batch that nobody holds.** -/
theorem noLoss_iff (hs : Tidy s) : NoLoss s ↔ Conserved s ∧ Holds s := by
  unfold NoLoss held Holds
  cases s.reads with
  | true => simp [Conserved]
  | false =>
    simp only [Bool.false_eq_true, if_false, false_or, List.map_nil, List.not_mem_nil, or_false]
    constructor
    · intro h
      refine ⟨fun f hf => (h f hf).imp_right .inl, List.eq_nil_iff_forall_not_mem.2 ?_⟩
      intro f hf
      obtain ⟨hr, he, hp⟩ := hs.batch f hf
      exact (h f hr).elim he hp
    · rintro ⟨hkept, hempty⟩ f hf
      rcases hkept f hf with he | hp | hb
      · exact .inl he
      · exact .inr hp
      · rw [hempty] at hb
        cases hb

namespace Tidy

theorem lt_of_mem {f : Fetched} (hs : Tidy s) (hf : f ∈ s.history.returned) :
    f.seq < s.history.returned.length := by
  have hmem : f.seq ∈ s.history.returned.map Fetched.seq := List.mem_map_of_mem hf
  rw [hs.seqs] at hmem
  exact List.mem_range.1 hmem

/-- The numbers of new messages follow on. -/
theorem seqs_fetches {fs : List Fetched} (hs : Tidy s) (h : Fetches s fs t) :
    t.history.returned.map Fetched.seq = List.range t.history.returned.length := by
  rw [h.returned, List.map_append, hs.seqs, h.seqs, List.length_append, List.range_eq_range',
    List.range_eq_range', ← List.range'_append_1, Nat.zero_add]

theorem fetches {fs : List Fetched} (hs : Tidy s) (h : Fetches s fs t) : Tidy t := by
  have hle : s.history.returned.length ≤ t.history.returned.length := by
    rw [h.returned, List.length_append]
    exact Nat.le_add_right _ _
  constructor
  · exact hs.seqs_fetches h
  · rw [show t.history.emitted = s.history.emitted by rw [h.eq]]
    exact fun n hn => Nat.lt_of_lt_of_le (hs.emitted n hn) hle
  · rw [show t.history.poisoned = s.history.poisoned by rw [h.eq]]
    exact fun n hn => Nat.lt_of_lt_of_le (hs.poisoned n hn) hle
  · rw [h.eq]
    intro f hf
    obtain ⟨hr, he, hp⟩ := hs.batch f hf
    exact ⟨List.mem_append_left _ hr, he, hp⟩
  · rw [show t.batch = s.batch by rw [h.eq]]
    exact hs.nodup

end Tidy

theorem sameMessages_of_bootstraps (h : Bootstraps s t) : SameMessages s t := by
  constructor <;> rw [h.books]

theorem sameMessages_syncAssignment : SameMessages s s.syncAssignment :=
  ⟨rfl, rfl, rfl, rfl⟩

theorem sameMessages_finishSeekToOffsets (offsets : OffsetMap) :
    SameMessages s (s.finishSeekToOffsets offsets) := by
  rcases finishSeekToOffsets_cases s offsets with heq | ⟨_, _, heq⟩ <;> rw [heq] <;>
    exact ⟨rfl, rfl, rfl, rfl⟩

theorem sameMessages_beginSeek (partitions : Option (Finset TopicPartition)) :
    SameMessages s (s.beginSeek partitions) := by
  rcases beginSeek_cases s partitions with heq | ⟨_, heq⟩ <;> rw [heq] <;>
    exact ⟨rfl, rfl, rfl, rfl⟩

/-- **A probe loses what it returns.** -/
theorem conserved_fetches_iff {fs : List Fetched} (hs : Tidy s) (hn : Conserved s)
    (h : Fetches s fs t) : Conserved t ↔ fs = [] := by
  constructor
  · intro ht
    cases hfs : fs with
    | nil => rfl
    | cons f gs =>
      exfalso
      have hf : f ∈ fs := by
        rw [hfs]
        exact List.mem_cons_self
      have hseq : f.seq ∈ fs.map Fetched.seq := List.mem_map_of_mem hf
      rw [h.seqs, List.mem_range'_1] at hseq
      rcases ht f (by rw [h.returned]; exact List.mem_append_right _ hf) with he | hp | hb
      · rw [show t.history.emitted = s.history.emitted by rw [h.eq]] at he
        exact absurd (hs.emitted _ he) (Nat.not_lt.2 hseq.1)
      · rw [show t.history.poisoned = s.history.poisoned by rw [h.eq]] at hp
        exact absurd (hs.poisoned _ hp) (Nat.not_lt.2 hseq.1)
      · rw [show t.batch = s.batch by rw [h.eq]] at hb
        obtain ⟨g, hg, hgf⟩ := List.mem_map.1 hb
        have hlt := hs.lt_of_mem (hs.batch g hg).1
        omega
  · rintro rfl
    have hsame : SameMessages s t := by
      constructor <;> rw [h.eq]
      exact List.append_nil _
    exact hsame.conserved_iff.2 hn

/-- A probe loses a message just when it returns one. -/
theorem probe_messages {message : Option ConsumerRecord} (hs : Tidy s) (hn : Conserved s)
    (h : s.probe message = some t) : Tidy t ∧ (Conserved t ↔ message = none) := by
  obtain ⟨fs, hfs, hlength⟩ := probe_fetches h
  refine ⟨hs.fetches hfs, (conserved_fetches_iff hs hn hfs).trans ?_⟩
  rw [← List.length_eq_zero_iff, hlength]
  cases message <;> simp

theorem SameMessages.commitReturns (h : SameMessages s u) (caller : Caller) :
    SameMessages s (u.commitReturns caller) := by
  cases caller <;> exact ⟨h.returned, h.emitted, h.poisoned, h.batch⟩

theorem SameMessages.commitRaises (h : SameMessages s u) (caller : Caller) :
    SameMessages s (u.commitRaises caller) := by
  cases caller <;> exact ⟨h.returned, h.emitted, h.poisoned, h.batch⟩

theorem SameMessages.acknowledgeDelivery (h : SameMessages s u) (i : ℕ) (d : Delivery)
    (caller : Caller) : SameMessages s (u.acknowledgeDelivery cfg i d caller) := by
  constructor <;> rw [toBooks_acknowledgeDelivery]
  · exact h.returned
  · exact h.emitted
  · exact h.poisoned
  · exact h.batch

/-! ## The batch -/

/-- **A batch is received** by a stream that had none. -/
theorem receive_messages {idlePolls : ℕ} {fs : List Fetched} (hs : Tidy s) (hn : Conserved s)
    (hempty : s.batch = []) (h : Fetches s fs u) (hne : fs ≠ []) :
    Tidy (u.receive cfg idlePolls fs) ∧ Conserved (u.receive cfg idlePolls fs) := by
  have hu := hs.fetches h
  have hseq : ∀ f ∈ fs, s.history.returned.length ≤ f.seq := by
    intro f hf
    have hmem : f.seq ∈ fs.map Fetched.seq := List.mem_map_of_mem hf
    rw [h.seqs, List.mem_range'_1] at hmem
    exact hmem.1
  have hemitted : u.history.emitted = s.history.emitted := by rw [h.eq]
  have hpoisoned : u.history.poisoned = s.history.poisoned := by rw [h.eq]
  rw [receive_of_ne_nil hne]
  refine ⟨⟨hu.seqs, hu.emitted, hu.poisoned, fun f hf => ⟨?_, ?_, ?_⟩, ?_⟩, fun f hf => ?_⟩
  · show f ∈ u.history.returned
    rw [h.returned]
    exact List.mem_append_right _ hf
  · show f.seq ∉ u.history.emitted
    rw [hemitted]
    exact fun he => absurd (hs.emitted _ he) (Nat.not_lt.2 (hseq f hf))
  · show f.seq ∉ u.history.poisoned
    rw [hpoisoned]
    exact fun hp => absurd (hs.poisoned _ hp) (Nat.not_lt.2 (hseq f hf))
  · show (fs.map Fetched.seq).Nodup
    rw [h.seqs]
    exact List.nodup_range'
  · have hf : f ∈ s.history.returned ++ fs := h.returned ▸ hf
    rcases List.mem_append.1 hf with hf | hf
    · show f.seq ∈ u.history.emitted ∨ f.seq ∈ u.history.poisoned ∨ f.seq ∈ fs.map Fetched.seq
      rw [hemitted, hpoisoned]
      rcases hn f hf with he | hp | hb
      · exact .inl he
      · exact .inr (.inl hp)
      · rw [hempty] at hb
        cases hb
    · exact .inr (.inr (List.mem_map_of_mem hf))

/-- **The first message of the batch is handed out.** -/
theorem emitRecord_messages {f : Fetched} {rest : List Fetched} (hs : Tidy s) (hn : Conserved s)
    (hbatch : s.batch = f :: rest) :
    Tidy (s.emitRecord f rest) ∧ Conserved (s.emitRecord f rest) := by
  have hnodup := hs.nodup
  rw [hbatch, List.map_cons, List.nodup_cons] at hnodup
  have hf := hs.batch f (by rw [hbatch]; exact List.mem_cons_self)
  have hrest : ∀ g ∈ rest, g ∈ s.batch := by
    rw [hbatch]
    exact fun g => List.mem_cons_of_mem f
  refine ⟨⟨hs.seqs, fun n hn => ?_, hs.poisoned, fun g hg => ?_, hnodup.2⟩, fun g hg => ?_⟩
  · rcases List.mem_append.1 hn with hn | hn
    · exact hs.emitted n hn
    · rw [List.mem_singleton.1 hn]
      exact hs.lt_of_mem hf.1
  · obtain ⟨hr, he, hp⟩ := hs.batch g (hrest g hg)
    refine ⟨hr, fun hmem => ?_, hp⟩
    rcases List.mem_append.1 hmem with hmem | hmem
    · exact he hmem
    · rw [← List.mem_singleton.1 hmem] at hnodup
      exact hnodup.1 (List.mem_map_of_mem hg)
  · show g.seq ∈ s.history.emitted ++ [f.seq] ∨ g.seq ∈ s.history.poisoned
      ∨ g.seq ∈ rest.map Fetched.seq
    rcases hn g hg with he | hp | hb
    · exact .inl (List.mem_append_left _ he)
    · exact .inr (.inl hp)
    · rw [hbatch, List.map_cons, List.mem_cons] at hb
      rcases hb with heq | hb
      · exact .inl (List.mem_append_right _ (List.mem_singleton.2 heq))
      · exact .inr (.inr hb)

/-- The messages that are poison are the first of the batch. -/
theorem poisonMessages_append (s : Source) (cfg : SourceConfig) :
    s.poisonMessages cfg ++ s.batch.drop (s.poisonMessages cfg).length = s.batch := by
  unfold poisonMessages
  split
  · rw [List.drop_length, List.append_nil]
  · cases s.batch <;> rfl

/-- **The first messages of the batch are poison.** -/
theorem takePoison_messages {poison rest : List Fetched} (hs : Tidy s) (hn : Conserved s)
    (hbatch : poison ++ rest = s.batch) :
    Tidy (s.takePoison poison) ∧ Conserved (s.takePoison poison) := by
  have hdrop : s.batch.drop poison.length = rest := by
    rw [← hbatch, List.drop_left]
  have hnodup := hs.nodup
  rw [← hbatch, List.map_append, List.nodup_append] at hnodup
  have hrest : ∀ g ∈ (s.takePoison poison).batch, g ∈ rest := fun g hg => hdrop ▸ hg
  refine ⟨⟨hs.seqs, hs.emitted, fun n hn => ?_, fun g hg => ?_, ?_⟩, fun g hg => ?_⟩
  · rcases List.mem_append.1 hn with hn | hn
    · exact hs.poisoned n hn
    · obtain ⟨f, hf, rfl⟩ := List.mem_map.1 hn
      exact hs.lt_of_mem (hs.batch f (hbatch ▸ List.mem_append_left _ hf)).1
  · have hg := hrest g hg
    obtain ⟨hr, he, hp⟩ := hs.batch g (hbatch ▸ List.mem_append_right _ hg)
    refine ⟨hr, he, fun hmem => ?_⟩
    rcases List.mem_append.1 hmem with hmem | hmem
    · exact hp hmem
    · exact hnodup.2.2 _ hmem _ (List.mem_map_of_mem hg) rfl
  · show ((s.batch.drop poison.length).map Fetched.seq).Nodup
    rw [hdrop]
    exact hnodup.2.1
  · show g.seq ∈ s.history.emitted ∨ g.seq ∈ s.history.poisoned ++ poison.map Fetched.seq
      ∨ g.seq ∈ (s.batch.drop poison.length).map Fetched.seq
    rw [hdrop]
    rcases hn g hg with he | hp | hb
    · exact .inl he
    · exact .inr (.inl (List.mem_append_left _ hp))
    · rw [← hbatch, List.map_append, List.mem_append] at hb
      rcases hb with hb | hb
      · exact .inr (.inl (List.mem_append_right _ hb))
      · exact .inr (.inr hb)

/-- The poison leaves the batch; what else happens then concerns no message. -/
theorem sameMessages_poisonCaptured (s : Source) (cfg : SourceConfig) :
    SameMessages (s.takePoison (s.poisonMessages cfg)) (s.poisonCaptured cfg) := by
  unfold poisonCaptured
  dsimp only
  split
  · refine SameMessages.trans ?_ (.of_books (toBooks_callCommit _))
    rw [dropMessages_eq]
    exact ⟨rfl, rfl, rfl, rfl⟩
  · exact ⟨rfl, rfl, rfl, rfl⟩

/-- **A stream starts** with no batch: what the last one had is lost. -/
theorem conserved_resetForStream_iff (hs : Tidy s) (hn : Conserved s) :
    Conserved s.resetForStream ↔ s.batch = [] := by
  constructor
  · intro h
    refine List.eq_nil_iff_forall_not_mem.2 (fun f hf => ?_)
    obtain ⟨hr, he, hp⟩ := hs.batch f hf
    rcases h f hr with h | h | h
    · exact he h
    · exact hp h
    · cases h
  · intro hempty f hf
    have hnone := hn f hf
    rw [hempty] at hnone
    exact hnone

theorem tidy_resetForStream (hs : Tidy s) : Tidy s.resetForStream where
  seqs := hs.seqs
  emitted := hs.emitted
  poisoned := hs.poisoned
  batch _ hf := nomatch hf
  nodup := .nil

/-! ## Runs -/

theorem probe_of_isQuiet (he : e.isQuiet = true) : e.probe = none := by
  cases e <;> first | rfl | cases he

/-- **One step drops no message but what a probe is answered.** -/
theorem step_conserved (hs : Tidy s) (hawaits : s.pc.awaitsBatch = true → s.batch = [])
    (hidle : s.call = none → s.pc = .idle ∨ s.pc = .ended → s.batch = []) (hn : Conserved s)
    (h : s.step cfg retry e = some t) : Tidy t ∧ (Conserved t ↔ e.probe = none) := by
  have hsame : ∀ {u : Source}, SameMessages s u → e.probe = none →
      Tidy u ∧ (Conserved u ↔ e.probe = none) :=
    fun hu hk => ⟨hu.tidy hs, iff_of_true (hu.conserved_iff.2 hn) hk⟩
  have hstart : ∀ {u v : Source}, Tidy u → SameMessages u v →
      (Conserved u ↔ e.probe = none) → Tidy v ∧ (Conserved v ↔ e.probe = none) :=
    fun hu hv hk => ⟨hv.tidy hu, hv.conserved_iff.trans hk⟩
  -- poison moves from the batch to what was dropped, and no record is lost
  have hpoison : ∀ {u : Source}, SameMessages s u → e.probe = none →
      Tidy (u.poisonCaptured cfg) ∧ (Conserved (u.poisonCaptured cfg) ↔ e.probe = none) := by
    intro u hu hk
    have htaken := takePoison_messages (hu.tidy hs) (hu.conserved_iff.2 hn)
      (poisonMessages_append u cfg)
    exact hstart htaken.1 (sameMessages_poisonCaptured u cfg) (iff_of_true htaken.2 hk)
  cases step_reacts h with
  | idles he h => exact hsame (.of_books h.books) (probe_of_isQuiet he)
  | errs he _ _ _ _ _ hbooks h =>
    exact hsame ⟨by rw [h.books, hbooks], by rw [h.books, hbooks], by rw [h.books, hbooks],
      by rw [h.books, hbooks]⟩ (probe_of_isQuiet he)
  | starts _ hpc =>
    have hempty := hidle (call_eq_none_of_step h nofun) hpc
    exact hstart (tidy_resetForStream hs) (sameMessages_of_bootstraps (bootstraps_startStream s))
      (iff_of_true ((conserved_resetForStream_iff hs hn).2 hempty) rfl)
  -- a probe is where a record that was read is thrown away
  | refreshes _ hprobe =>
    obtain ⟨hu, hk⟩ := probe_messages hs hn hprobe
    exact hstart hu (sameMessages_of_bootstraps
      (bootstraps_applyInitialPositioning _).of_sync) hk
  | positions _ hprobe =>
    obtain ⟨hu, hk⟩ := probe_messages hs hn hprobe
    exact hstart hu (sameMessages_of_bootstraps (bootstraps_seekAndStart _).of_sync) hk
  | @receives _ idlePolls messages u hpc hfetch hne =>
    have hempty : s.batch = [] := hawaits (by rw [hpc]; rfl)
    obtain ⟨ht, hnt⟩ := receive_messages hs hn hempty (fetchAll_fetches hfetch) hne
    exact ⟨ht, iff_of_true hnt rfl⟩
  | emits he _ _ hbatch =>
    obtain ⟨ht, hnt⟩ := emitRecord_messages hs hn hbatch
    refine ⟨ht, iff_of_true hnt ?_⟩
    rcases he with rfl | rfl <;> rfl
  | passesOver =>
    refine hsame (.acknowledgeDelivery ?_ _ _ _) rfl
    exact ⟨rfl, rfl, rfl, rfl⟩
  | acknowledges =>
    refine hsame (.acknowledgeDelivery ?_ _ _ _) rfl
    exact ⟨rfl, rfl, rfl, rfl⟩
  | captures => exact hpoison ⟨rfl, rfl, rfl, rfl⟩ rfl
  | drops he _ _ _ hu =>
    rcases hu with rfl | rfl <;> exact hpoison ⟨rfl, rfl, rfl, rfl⟩ (probe_of_isQuiet he)
  | committed =>
    refine hsame (.commitReturns ?_ _) rfl
    exact ⟨rfl, rfl, rfl, rfl⟩
  | commitFailed =>
    refine hsame (.commitRaises ?_ _) rfl
    exact ⟨rfl, rfl, rfl, rfl⟩
  | asks he => exact hsame ⟨rfl, rfl, rfl, rfl⟩ (probe_of_isQuiet he)
  | beginsSeek he =>
    exact hsame (.trans sameMessages_syncAssignment (sameMessages_beginSeek _))
      (probe_of_isQuiet he)
  | seeks =>
    exact hsame (.trans sameMessages_syncAssignment (sameMessages_finishSeekToOffsets _)) rfl
  | @probesForSeek i _ _ _ _ hprobe =>
    have hdrop : SameMessages s (s.dropCall i) := ⟨rfl, rfl, rfl, rfl⟩
    obtain ⟨hu, hk⟩ := probe_messages (hdrop.tidy hs) (hdrop.conserved_iff.2 hn) hprobe
    exact hstart hu (.trans sameMessages_syncAssignment (sameMessages_finishSeekToOffsets _)) hk
  | @probesToBeginSeek i _ _ _ _ hprobe =>
    have hdrop : SameMessages s (s.dropCall i) := ⟨rfl, rfl, rfl, rfl⟩
    obtain ⟨hu, hk⟩ := probe_messages (hdrop.tidy hs) (hdrop.conserved_iff.2 hn) hprobe
    exact hstart hu (.trans sameMessages_syncAssignment (sameMessages_beginSeek _)) hk
  | _ => exact hsame ⟨rfl, rfl, rfl, rfl⟩ rfl

/-- What is so of a source wherever its messages have gone. -/
structure Streams (s : Source) : Prop where
  tidy : Tidy s
  alone : Alone s
  calls : Calls s
  awaits : s.pc.awaitsBatch = true → s.batch = []

/-- **One step loses no message just when it should.** -/
theorem step_noLoss (hs : Streams s) (hn : NoLoss s) (h : s.step cfg retry e = some t) :
    Streams t ∧ (NoLoss t ↔ KeepsMessages cfg retry s e) := by
  obtain ⟨hkept, hholds⟩ := (noLoss_iff hs.tidy).1 hn
  have hidle : s.call = none → s.pc = .idle ∨ s.pc = .ended → s.batch = [] := by
    intro hcall hpc
    refine hholds.resolve_left ?_
    rw [reads_of_left (hpc.imp_right .inr) (by rw [hcall]; exact nofun)
      (ne_deliver (hs.alone.idle (onTurn_of_idle hpc)))]
    exact Bool.false_ne_true
  obtain ⟨htidy, hkeeps⟩ := step_conserved hs.tidy hs.awaits hidle hkept h
  have hstep := holds_step hs.alone hs.calls hs.awaits hholds h
  refine ⟨⟨htidy, alone_step hs.alone h, calls_step hs.calls h,
    batch_of_awaitsBatch hs.awaits h⟩, ?_⟩
  rw [noLoss_iff htidy]
  exact and_congr hkeeps hstep

/-- **No message is lost, throughout exactly the runs** in which no probe returns
one, and no stream is left with messages in its batch. -/
theorem noLoss_iff_keepsMessages (cfg : SourceConfig)
    (retry : KafkaSink.RetryAsync DLQRecord) (es : List Event) :
    AllStates (step cfg retry) NoLoss (Source.new cfg) es
      ↔ AllSteps (step cfg retry) (fun s e _ => KeepsMessages cfg retry s e) (Source.new cfg)
        es := by
  refine allStates_iff_allSteps (I := Streams) (fun s e t hs hn h => step_noLoss hs hn h) ?_ ?_ es
  · exact ⟨⟨rfl, nofun, nofun, nofun, .nil⟩, .of_none nofun, calls_of_none rfl, nofun⟩
  · exact nofun

/-- A source resumed from a checkpoint of one partition is assigned another. The
probe that is to get it the first returns a message of the second. -/
def probedWhileResuming : List Event :=
  [.prepareResume (some ⟨some ⟨"events", 0, 41⟩, none⟩), .open (fun _ => 0),
    .assigned {⟨"events", 1⟩} (fun _ => 0), .stream,
    .probed (some { tp := ⟨"events", 1⟩, offset := 0 })]

/-- **A message is lost**: the probe has returned it, and nobody has it. -/
theorem not_noLoss :
    ¬ AllStates (step {} (KafkaSink.RetryAsync.upTo DLQRecord 1)) NoLoss (Source.new {})
      probedWhileResuming := by
  decide

end Source

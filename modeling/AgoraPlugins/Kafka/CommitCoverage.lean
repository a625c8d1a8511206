import AgoraPlugins.Kafka.CommitSafety
import AgoraPlugins.Kafka.Consumption
import Mathlib.Data.Finset.Lattice.Lemmas

/-!
# What a commit covers

A commit of an offset covers every record of the partition before it, not only the record it was
made for. So it is right if these have all been handled: acknowledged, passed over, or dropped.

A stream handles its records in the order in which it has fetched them: it goes on to the next one
when the last is handled, and to the next poll when the batch is used up. So when a record is handed
out, all that were fetched before it in the stream have been handled, whenever it is acknowledged
then. What breaks this are records that the stream does not know of: one that a probe of the
assignment has fetched and dropped, and one of an earlier stream, whose acknowledgement comes when
the consumer has gone back. And a commit without offsets covers what has only been fetched.

Where none of these happens, no commit covers a record that has not been handled
(`covered_of_keepsCovered`).
-/

open Machine

/-- The record has been fetched since the stream started. -/
def History.Current (h : History) (f : Fetched) : Prop :=
  f ∈ h.returned ∧ h.streamStart ≤ f.seq

namespace Source

variable {cfg : SourceConfig} {retry : KafkaSink.RetryAsync DLQRecord} {s t u : Source}
  {e : Event}

/-! ## The law -/

/-- **What a position covers has been handled**, of the records that were fetched in this
stream. -/
def Handled (h : History) (n : TopicPartition × ℤ) : Prop :=
  ∀ f ∈ h.returned, h.streamStart ≤ f.seq → f.tp = n.1 → f.offset < n.2 → f.seq ∈ h.settled

instance (h : History) : DecidablePred (Handled h) :=
  fun _ => inferInstanceAs (Decidable (∀ _ ∈ _, _))

/-- Of what a commit issued now takes to the broker, the offsets it names or the position of each
assigned partition, all has been handled. -/
def CoversHandled (s : Source) (c : CommitCall) : Prop :=
  match c.request with
  | .offsets named => ∀ n ∈ (CommitRequest.offsets named).named, Handled s.history n
  | .consumed => ∀ tp ∈ s.operator.consumer.assignment,
    Handled s.history (tp, s.operator.consumer.position tp)

instance (s : Source) : DecidablePred s.CoversHandled
  | { request := .offsets _, .. } => inferInstanceAs (Decidable (∀ _ ∈ _, _))
  | { request := .consumed, .. } => inferInstanceAs (Decidable (∀ _ ∈ _, _))

/-- **The commits a step issues cover only what has been handled.** -/
def CommitsCovered (s t : Source) : Prop := ∀ c ∈ s.issued t, s.CoversHandled c

instance (s t : Source) : Decidable (CommitsCovered s t) :=
  inferInstanceAs (Decidable (∀ _ ∈ _, _))

/-! ## The condition -/

/-- **A record of an earlier stream is behind** this one: what it covers has been handled, and the
partition is not to be read from before it. -/
def Behind (s : Source) (f : Fetched) : Prop :=
  Handled s.history (f.tp, f.offset + 1)
    ∧ (s.reads = true → f.tp ∈ s.operator.consumer.assignment →
      f.offset < s.operator.consumer.position f.tp)

instance (s : Source) : DecidablePred s.Behind :=
  fun _ => inferInstanceAs (Decidable (_ ∧ _))

/-- **The partition is not read again**: the position is after all that has been fetched in this
stream, and after what is committable. -/
def ReadsOn (s : Source) (tp : TopicPartition) (position : ℤ) : Prop :=
  (∀ f ∈ s.history.returned, s.history.streamStart ≤ f.seq → f.tp = tp → f.offset < position)
    ∧ ∀ offset ∈ s.cursor.committableOffsets.lookup tp, offset < position

instance (s : Source) (tp : TopicPartition) (position : ℤ) : Decidable (s.ReadsOn tp position) :=
  inferInstanceAs (Decidable (_ ∧ _))

/-- Whether the event can happen without a record being covered that has not been handled. -/
def KeepsOrder (s : Source) : Event → Prop
  | .acknowledge i => ∀ d ∈ s.deliveries[i]?, d.acknowledged = false →
    d.message.seq < s.history.streamStart → s.Behind d.message
  | .transactionCommitted i => ∀ d ∈ s.deliveries[i]?,
    d.message.seq < s.history.streamStart → s.Behind d.message
  | .probed message => message = none ∧ s.cursor.committableOffsets.entries = []
    ∧ ∀ f ∈ s.history.returned, f.seq < s.history.streamStart
  | .assigned ps position => s.reads = true → ∀ tp ∈ ps, s.ReadsOn tp (position tp)
  | .seekToOffsets _ | .operatorProbed _ _ | .seeked _ _ => False
  | .seekFailed _ moved _ => moved = ∅
  | _ => True

instance (s : Source) : DecidablePred s.KeepsOrder
  | .acknowledge _ | .transactionCommitted _ => inferInstanceAs (Decidable (∀ _ ∈ _, _))
  | .probed _ => inferInstanceAs (Decidable (_ ∧ _ ∧ _))
  | .assigned _ _ => inferInstanceAs (Decidable (_ → _))
  | .seekToOffsets _ | .operatorProbed _ _ | .seeked _ _ => .isFalse id
  | .seekFailed _ moved _ => inferInstanceAs (Decidable (moved = ∅))
  | .proceed | .openPoisonSink _ | .closePoisonSink _ | .open _ | .close | .prepareResume _
  | .checkpoint | .stream | .polled _ | .pollStopped | .pollFailed | .deserialized
  | .deserializedBatch _ | .malformed _ | .captured _ | .next | .closeStream | .interrupted
  | .committed _ | .commitFailed _ | .revoked _ | .commitNow | .pause _ | .resume _
  | .seekWithConsumerMethod _ => .isTrue trivial

/-- Everything that has been fetched in this stream, from partitions that are assigned, has been
handled. -/
def AllHandled (s : Source) : Prop :=
  ∀ f ∈ s.history.returned, s.history.streamStart ≤ f.seq →
    f.tp ∈ s.operator.consumer.assignment → f.seq ∈ s.history.settled

instance : DecidablePred AllHandled := fun _ => inferInstanceAs (Decidable (∀ _ ∈ _, _))

/-- **What must be so before a step.** -/
def KeepsCovered (cfg : SourceConfig) (s : Source) (e : Event) : Prop :=
  s.KeepsOrder e
    ∧ (s.issuesCommit cfg e = true → s.cursor.committableOffsets.entries ≠ [] ∨ s.AllHandled)

instance (s : Source) (e : Event) : Decidable (KeepsCovered cfg s e) :=
  inferInstanceAs (Decidable (_ ∧ _))

/-! ## The order of a stream -/

/-- The records of a partition are fetched in the order of their offsets. -/
def Increasing (h : History) : Prop :=
  ∀ f g, h.Current f → h.Current g → f.tp = g.tp → f.seq < g.seq → f.offset < g.offset

/-- **A stream handles its records in order**: those that were fetched before the batch at hand have
been handled, and so have those before any record that was handed out. -/
structure InOrder (s : Source) : Prop where
  start : s.history.streamStart ≤ s.history.returned.length
  increasing : Increasing s.history
  batch : ∀ f ∈ s.batch, s.history.Current f
  sorted : s.batch.Pairwise (fun f g => f.seq < g.seq)
  awaits : s.pc.awaitsBatch = true → s.batch = []
  acknowledged : ∀ d ∈ s.deliveries, d.acknowledged = true → s.history.Current d.message →
    d.message.seq ∈ s.history.settled
  earlier : ∀ d ∈ s.deliveries, s.history.Current d.message → ∀ g, s.history.Current g →
    g.seq < d.message.seq → g.seq ∈ s.history.settled
  live : s.live = true → ∀ g, s.history.Current g → g ∈ s.batch ∨ g.seq ∈ s.history.settled
  inHand : ∀ i, s.pc = .yielded i → ∃ d, s.deliveries[i]? = some d ∧ s.history.Current d.message
    ∧ ∀ g, s.history.Current g → g ∈ s.batch ∨ g.seq ∈ s.history.settled ∨ g = d.message
  reads : s.reads = true → ∀ tp ∈ s.operator.consumer.assignment,
    s.ReadsOn tp (s.operator.consumer.position tp)
  covered : ∀ tp offset, s.cursor.committableOffsets.lookup tp = some offset →
    Handled s.history (tp, offset + 1)

/-- **Nothing is fetched or handled**, and no partition is read from elsewhere. -/
structure Rests (s t : Source) : Prop where
  returned : t.history.returned = s.history.returned
  streamStart : t.history.streamStart = s.history.streamStart
  settled : t.history.settled = s.history.settled
  batch : t.batch = s.batch
  deliveries : t.deliveries = s.deliveries
  committable : ∀ tp offset, t.cursor.committableOffsets.lookup tp = some offset →
    s.cursor.committableOffsets.lookup tp = some offset
  positions : ∀ tp ∈ t.operator.consumer.assignment, tp ∈ s.operator.consumer.assignment
    ∧ t.operator.consumer.position tp = s.operator.consumer.position tp
  live : t.live = true → s.live = true
  awaits : t.pc.awaitsBatch = true → s.pc.awaitsBatch = true ∨ s.batch = []
  yields : ∀ i, t.pc = .yielded i → s.pc = .yielded i

theorem current_congr {h h' : History} (hreturned : h'.returned = h.returned)
    (hstart : h'.streamStart = h.streamStart) {f : Fetched} : h'.Current f ↔ h.Current f := by
  unfold History.Current
  rw [hreturned, hstart]

theorem Handled.mono {h h' : History} {n n' : TopicPartition × ℤ} (hn : Handled h n)
    (hreturned : h'.returned = h.returned) (hstart : h'.streamStart = h.streamStart)
    (hsettled : h.settled ⊆ h'.settled) (htp : n'.1 = n.1) (hle : n'.2 ≤ n.2) : Handled h' n' := by
  unfold Handled
  rw [hreturned, hstart]
  intro f hf hseq hftp hlt
  exact hsettled (hn f hf hseq (hftp.trans htp) (lt_of_lt_of_le hlt hle))

theorem ReadsOn.mono {tp : TopicPartition} {p q : ℤ} (h : s.ReadsOn tp p)
    (hreturned : t.history.returned = s.history.returned)
    (hstart : t.history.streamStart = s.history.streamStart)
    (hcommittable : ∀ offset, t.cursor.committableOffsets.lookup tp = some offset →
      s.cursor.committableOffsets.lookup tp = some offset) (hle : p ≤ q) : t.ReadsOn tp q := by
  unfold ReadsOn
  rw [hreturned, hstart]
  refine ⟨fun f hf hseq htp => lt_of_lt_of_le (h.1 f hf hseq htp) hle, fun offset hl => ?_⟩
  exact lt_of_lt_of_le (h.2 offset (hcommittable offset hl)) hle

theorem Rests.inOrder (h : Rests s t) (hs : InOrder s) : InOrder t := by
  have hcurrent : ∀ {f : Fetched}, t.history.Current f ↔ s.history.Current f :=
    current_congr h.returned h.streamStart
  constructor
  · rw [h.streamStart, h.returned]
    exact hs.start
  · intro f g hf hg
    exact hs.increasing f g (hcurrent.1 hf) (hcurrent.1 hg)
  · rw [h.batch]
    exact fun f hf => hcurrent.2 (hs.batch f hf)
  · rw [h.batch]
    exact hs.sorted
  · rw [h.batch]
    exact fun ha => (h.awaits ha).elim hs.awaits id
  · rw [h.deliveries, h.settled]
    exact fun d hd hack hc => hs.acknowledged d hd hack (hcurrent.1 hc)
  · rw [h.deliveries, h.settled]
    exact fun d hd hc g hg => hs.earlier d hd (hcurrent.1 hc) g (hcurrent.1 hg)
  · rw [h.batch, h.settled]
    exact fun hl g hg => hs.live (h.live hl) g (hcurrent.1 hg)
  · intro i hi
    obtain ⟨d, hd, hc, hrest⟩ := hs.inHand i (h.yields i hi)
    rw [h.deliveries, h.batch, h.settled]
    exact ⟨d, hd, hcurrent.2 hc, fun g hg => hrest g (hcurrent.1 hg)⟩
  · intro hr tp htp
    obtain ⟨hassigned, hposition⟩ := h.positions tp htp
    rw [hposition]
    exact (hs.reads (reads_of h.live h.yields hr) tp hassigned).mono h.returned h.streamStart
      (h.committable tp) le_rfl
  · intro tp offset hl
    refine (hs.covered tp offset (h.committable tp offset hl)).mono h.returned h.streamStart ?_ rfl
      le_rfl
    rw [h.settled]
    exact List.Subset.refl _

/-! ## Records are fetched -/

/-- Of what is fetched together, the records of a partition are in the order of their offsets. -/
theorem offset_lt_of_seq_lt {fs : List Fetched} (hsorted : fs.Pairwise (fun f g => f.seq < g.seq))
    (hincreasing : fs.Pairwise (fun f g => f.tp = g.tp → f.offset < g.offset)) {f g : Fetched}
    (hf : f ∈ fs) (hg : g ∈ fs) (htp : f.tp = g.tp) (hfg : f.seq < g.seq) :
    f.offset < g.offset := by
  induction fs with
  | nil => cases hf
  | cons h fs ih =>
    rw [List.pairwise_cons] at hsorted hincreasing
    rcases List.mem_cons.1 hf with rfl | hf' <;> rcases List.mem_cons.1 hg with rfl | hg'
    · exact absurd hfg (lt_irrefl _)
    · exact hincreasing.1 g hg' htp
    · exact absurd (hsorted.1 f hf') (lt_asymm hfg)
    · exact ih hsorted.2 hincreasing.2 hf' hg'

/-- **A batch is received**, by a stream that has handled all before it. -/
theorem InOrder.receive {idlePolls : ℕ} {fs : List Fetched} (hs : InOrder s)
    (htracked : Tracked s.toBooks) (hpc : s.pc = .polling idlePolls)
    (hfs : Fetches s fs u) (hne : fs ≠ []) : InOrder (u.receive cfg idlePolls fs) := by
  have hlive : s.live = true := live_of_inLoop (by rw [hpc]; rfl)
  have hempty : s.batch = [] := hs.awaits (by rw [hpc]; rfl)
  have hreads := hs.reads (reads_of_live hlive)
  have hstart : u.history.streamStart = s.history.streamStart := by rw [hfs.eq]
  have hsettled : u.history.settled = s.history.settled := by rw [hfs.eq]
  have hdeliveries : u.deliveries = s.deliveries := by rw [hfs.eq]
  have hcursor : u.cursor = s.cursor := by rw [hfs.eq]
  have hassignment : u.operator.consumer.assignment = s.operator.consumer.assignment := by
    rw [hfs.eq]
  -- what is fetched gets the numbers after all those given so far
  have hseq : ∀ f ∈ fs, s.history.returned.length ≤ f.seq := by
    intro f hf
    have hmem : f.seq ∈ fs.map Fetched.seq := List.mem_map_of_mem hf
    rw [hfs.seqs, List.mem_range'_1] at hmem
    exact hmem.1
  have hlt : ∀ f ∈ s.history.returned, f.seq < s.history.returned.length := by
    intro f hf
    have hmem : f.seq ∈ s.history.returned.map Fetched.seq := List.mem_map_of_mem hf
    rw [htracked.seqs] at hmem
    exact List.mem_range.1 hmem
  have hsorted : fs.Pairwise (fun f g => f.seq < g.seq) := by
    have hrange : (fs.map Fetched.seq).Pairwise (· < ·) := by
      rw [hfs.seqs]
      exact List.pairwise_lt_range'
    exact List.pairwise_map.1 hrange
  have hcases : ∀ g, u.history.Current g → s.history.Current g ∨ g ∈ fs := by
    rintro g ⟨hg, hge⟩
    rw [hfs.returned] at hg
    rw [hstart] at hge
    exact (List.mem_append.1 hg).imp_left (fun hg => ⟨hg, hge⟩)
  -- the batch was empty, so every record of the stream is settled
  have hsettledBefore : ∀ g, s.history.Current g → g.seq ∈ s.history.settled := by
    intro g hg
    rcases hs.live hlive g hg with hg | hg
    · rw [hempty] at hg
      cases hg
    · exact hg
  have hmessage : ∀ d ∈ s.deliveries, d.message ∈ s.history.returned :=
    fun d hd => htracked.deliveries (List.mem_map_of_mem hd)
  have hold : ∀ d ∈ s.deliveries, u.history.Current d.message → s.history.Current d.message := by
    intro d hd hc
    exact ⟨hmessage d hd, hstart ▸ hc.2⟩
  rw [receive_of_ne_nil hne]
  -- one field of the invariant after the other
  constructor
  · show u.history.streamStart ≤ u.history.returned.length
    rw [hstart, hfs.returned, List.length_append]
    exact hs.start.trans (Nat.le_add_right _ _)
  · intro f g hf hg htp hfg
    rcases hcases f hf with hf | hf <;> rcases hcases g hg with hg | hg
    · exact hs.increasing f g hf hg htp hfg
    · -- what is fetched now is at the position, and what was fetched before is behind it
      have hassigned := hfs.assigned g hg
      have hbehind := (hreads g.tp hassigned).1 f hf.1 hf.2 htp
      exact lt_of_lt_of_le hbehind (hfs.bounds g hg).1
    · exact absurd (hlt g hg.1) (Nat.not_lt.2 ((hseq f hf).trans hfg.le))
    · exact offset_lt_of_seq_lt hsorted hfs.increasing hf hg htp hfg
  · intro f hf
    have hmem : f ∈ u.history.returned := by
      rw [hfs.returned]
      exact List.mem_append_right _ hf
    refine ⟨hmem, ?_⟩
    show u.history.streamStart ≤ f.seq
    rw [hstart]
    exact hs.start.trans (hseq f hf)
  · exact hsorted
  · exact nofun
  · show ∀ d ∈ u.deliveries, d.acknowledged = true → u.history.Current d.message →
      d.message.seq ∈ u.history.settled
    rw [hdeliveries, hsettled]
    exact fun d hd hack hc => hs.acknowledged d hd hack (hold d hd hc)
  · show ∀ d ∈ u.deliveries, u.history.Current d.message → ∀ g, u.history.Current g →
      g.seq < d.message.seq → g.seq ∈ u.history.settled
    rw [hdeliveries, hsettled]
    intro d hd hc g hg hgd
    rcases hcases g hg with hg | hg
    · exact hs.earlier d hd (hold d hd hc) g hg hgd
    · exact absurd (hlt _ (hmessage d hd)) (Nat.not_lt.2 ((hseq g hg).trans hgd.le))
  · intro _ g hg
    show g ∈ fs ∨ g.seq ∈ u.history.settled
    rw [hsettled]
    exact (hcases g hg).symm.imp_right (hsettledBefore g)
  · exact nofun
  · intro _ tp htp
    have htp : tp ∈ s.operator.consumer.assignment := hassignment ▸ htp
    obtain ⟨hfetched, hcommittable⟩ := hreads tp htp
    refine ⟨fun f hf hge hftp => ?_, fun offset hl => ?_⟩
    · show f.offset < u.operator.consumer.position tp
      rcases hcases f ⟨hf, hge⟩ with hf | hf
      · exact lt_of_lt_of_le (hfetched f hf.1 hf.2 hftp) (hfs.position tp)
      · rw [← hftp]
        exact (hfs.bounds f hf).2
    · show offset < u.operator.consumer.position tp
      have hl : u.cursor.committableOffsets.lookup tp = some offset := hl
      rw [hcursor] at hl
      exact lt_of_lt_of_le (hcommittable offset hl) (hfs.position tp)
  · intro tp offset hl
    have hl : u.cursor.committableOffsets.lookup tp = some offset := hl
    rw [hcursor] at hl
    intro f hf hge hftp hlt'
    show f.seq ∈ u.history.settled
    rw [hsettled]
    rcases hcases f ⟨hf, hge⟩ with hf | hf
    · exact hsettledBefore f hf
    · -- the partition is read on after what is committable
      have hftp : f.tp = tp := hftp
      have hassigned := hfs.assigned f hf
      rw [hftp] at hassigned
      have hcommittable := (hreads tp hassigned).2 offset hl
      have hbound := (hfs.bounds f hf).1
      rw [hftp] at hbound
      have hlt' : f.offset < offset + 1 := hlt'
      omega

/-! ## Records are handled -/

/-- **A record covers what has been handled** when all that were fetched before it have been. -/
theorem Increasing.handled {h h' : History} (hincreasing : Increasing h) {f : Fetched}
    (hf : h.Current f) (hearlier : ∀ g, h.Current g → g.seq < f.seq → g.seq ∈ h.settled)
    (hreturned : h'.returned = h.returned) (hstart : h'.streamStart = h.streamStart)
    (hsettled : h'.settled = h.settled ++ [f.seq]) : Handled h' (f.tp, f.offset + 1) := by
  unfold Handled
  rw [hreturned, hstart, hsettled]
  intro g hg hge htp hlt
  rcases lt_trichotomy g.seq f.seq with hseq | hseq | hseq
  · exact List.mem_append_left _ (hearlier g ⟨hg, hge⟩ hseq)
  · rw [hseq]
    exact List.mem_append_right _ (List.mem_singleton.2 rfl)
  · have hoffset := hincreasing f g hf ⟨hg, hge⟩ htp.symm hseq
    have hlt : g.offset < f.offset + 1 := hlt
    omega

/-- **What has been handed out covers what has been handled**, once it is handled itself, unless it
is of an earlier stream. -/
theorem InOrder.behind (hs : InOrder s) (htracked : Tracked s.toBooks) {d : Delivery}
    (hd : d ∈ s.deliveries) (hlate : d.message.seq < s.history.streamStart → s.Behind d.message)
    {h : History} (hreturned : h.returned = s.history.returned)
    (hstart : h.streamStart = s.history.streamStart)
    (hsettled : h.settled = s.history.settled ++ [d.message.seq]) :
    Handled h (d.message.tp, d.message.offset + 1)
      ∧ (s.reads = true → d.message.tp ∈ s.operator.consumer.assignment →
        d.message.offset < s.operator.consumer.position d.message.tp) := by
  have hmem : d.message ∈ s.history.returned := htracked.deliveries (List.mem_map_of_mem hd)
  rcases lt_or_ge d.message.seq s.history.streamStart with hlt | hge
  · obtain ⟨hhandled, hposition⟩ := hlate hlt
    refine ⟨hhandled.mono hreturned hstart ?_ rfl le_rfl, hposition⟩
    rw [hsettled]
    exact List.subset_append_left _ _
  · have hc : s.history.Current d.message := ⟨hmem, hge⟩
    exact ⟨hs.increasing.handled hc (hs.earlier d hd hc) hreturned hstart hsettled,
      fun hr htp => (hs.reads hr _ htp).1 _ hmem hge rfl⟩

/-- **A record that was handed out is handled.** -/
theorem InOrder.handle (hs : InOrder s) {f : Fetched}
    (hreturned : t.history.returned = s.history.returned)
    (hstart : t.history.streamStart = s.history.streamStart)
    (hsettled : t.history.settled = s.history.settled ++ [f.seq]) (hbatch : t.batch = s.batch)
    (hmessages : t.deliveries.map Delivery.message = s.deliveries.map Delivery.message)
    (hacknowledged : ∀ d ∈ t.deliveries, d.acknowledged = true → d ∈ s.deliveries ∨ d.message = f)
    (hcursor : t.cursor.committableOffsets = s.cursor.committableOffsets.insert f.tp f.offset)
    (hoperator : t.operator = s.operator)
    (hbehind : Handled t.history (f.tp, f.offset + 1)
      ∧ (s.reads = true → f.tp ∈ s.operator.consumer.assignment →
        f.offset < s.operator.consumer.position f.tp))
    (hawaits : t.pc.awaitsBatch = true → s.pc.awaitsBatch = true)
    (hlive : t.live = true → ∀ g, s.history.Current g →
      g ∈ s.batch ∨ g.seq ∈ s.history.settled ∨ g.seq = f.seq)
    (hyields : ∀ i, t.pc = .yielded i → s.pc = .yielded i)
    (hreads : t.reads = true → s.reads = true) : InOrder t := by
  have hcurrent : ∀ {g : Fetched}, t.history.Current g ↔ s.history.Current g :=
    current_congr hreturned hstart
  have hmono : s.history.settled ⊆ t.history.settled := by
    rw [hsettled]
    exact List.subset_append_left _ _
  have hself : f.seq ∈ t.history.settled := by
    rw [hsettled]
    exact List.mem_append_right _ (List.mem_singleton.2 rfl)
  have hdelivery : ∀ d ∈ t.deliveries, ∃ d' ∈ s.deliveries, d'.message = d.message := by
    intro d hd
    have hmem : d.message ∈ s.deliveries.map Delivery.message := by
      rw [← hmessages]
      exact List.mem_map_of_mem hd
    exact List.mem_map.1 hmem
  constructor
  · rw [hstart, hreturned]
    exact hs.start
  · intro g g' hg hg'
    exact hs.increasing g g' (hcurrent.1 hg) (hcurrent.1 hg')
  · rw [hbatch]
    exact fun g hg => hcurrent.2 (hs.batch g hg)
  · rw [hbatch]
    exact hs.sorted
  · rw [hbatch]
    exact fun ha => hs.awaits (hawaits ha)
  · intro d hd hack hc
    rcases hacknowledged d hd hack with hd | rfl
    · exact hmono (hs.acknowledged d hd hack (hcurrent.1 hc))
    · exact hself
  · intro d hd hc g hg hlt
    obtain ⟨d', hd', heq⟩ := hdelivery d hd
    rw [← heq] at hc hlt
    exact hmono (hs.earlier d' hd' (hcurrent.1 hc) g (hcurrent.1 hg) hlt)
  · intro hl g hg
    rw [hbatch]
    rcases hlive hl g (hcurrent.1 hg) with h | h | h
    · exact .inl h
    · exact .inr (hmono h)
    · exact .inr (h ▸ hself)
  · intro i hi
    obtain ⟨d, hd, hc, hrest⟩ := hs.inHand i (hyields i hi)
    have hmap : t.deliveries[i]?.map Delivery.message = some d.message := by
      rw [← List.getElem?_map, hmessages, List.getElem?_map, hd]
      rfl
    obtain ⟨d', hd', heq⟩ := Option.map_eq_some_iff.1 hmap
    refine ⟨d', hd', hcurrent.2 (heq ▸ hc), fun g hg => ?_⟩
    rw [hbatch, heq]
    rcases hrest g (hcurrent.1 hg) with h | h | h
    · exact .inl h
    · exact .inr (.inl (hmono h))
    · exact .inr (.inr h)
  · intro hr tp htp
    rw [hoperator] at htp ⊢
    obtain ⟨hfetched, hcommittable⟩ := hs.reads (hreads hr) tp htp
    unfold ReadsOn
    rw [hreturned, hstart, hcursor]
    refine ⟨hfetched, fun offset hl => ?_⟩
    by_cases heq : tp = f.tp
    · rw [heq] at htp hl ⊢
      rw [AList.lookup_insert, Option.mem_some_iff] at hl
      rw [← hl]
      exact hbehind.2 (hreads hr) htp
    · rw [AList.lookup_insert_ne heq] at hl
      exact hcommittable offset hl
  · intro tp offset hl
    rw [hcursor] at hl
    by_cases heq : tp = f.tp
    · rw [heq, AList.lookup_insert, Option.some.injEq] at hl
      rw [heq, ← hl]
      exact hbehind.1
    · rw [AList.lookup_insert_ne heq] at hl
      exact (hs.covered tp offset hl).mono hreturned hstart hmono rfl le_rfl

/-! ## Records are handed out or dropped -/

/-- **The first record of the batch is handed out.** -/
theorem InOrder.emit (hs : InOrder s) (hcall : s.call = none)
    (hcommits : ∀ c ∈ s.commits, c.caller.isStream = false) (hlive : s.live = true) {f : Fetched}
    {rest : List Fetched} (hbatch : s.batch = f :: rest) : InOrder (s.emitRecord f rest) := by
  have hnot : (s.emitRecord f rest).live = false := by
    refine live_eq_false (fun caller force hc => ?_) (ne_deliver hcommits) rfl
    have hc : s.call = some (caller, force) := hc
    rw [hcall] at hc
    cases hc
  have hsorted := hs.sorted
  rw [hbatch, List.pairwise_cons] at hsorted
  have hf : s.history.Current f := hs.batch f (by rw [hbatch]; exact List.mem_cons_self)
  have hrest : ∀ g, s.history.Current g → g = f ∨ g ∈ rest ∨ g.seq ∈ s.history.settled := by
    intro g hg
    have hmem := hs.live hlive g hg
    rw [hbatch, List.mem_cons, or_assoc] at hmem
    exact hmem
  constructor
  · exact hs.start
  · exact hs.increasing
  · exact fun g hg => hs.batch g (by rw [hbatch]; exact List.mem_cons_of_mem f hg)
  · exact hsorted.2
  · exact nofun
  · intro d hd hack hc
    rcases List.mem_append.1 hd with hd | hd
    · exact hs.acknowledged d hd hack hc
    · rw [List.mem_singleton.1 hd] at hack
      cases hack
  · intro d hd hc g hg hlt
    rcases List.mem_append.1 hd with hd | hd
    · exact hs.earlier d hd hc g hg hlt
    · rw [List.mem_singleton.1 hd] at hlt
      rcases hrest g hg with rfl | hmem | hmem
      · exact absurd hlt (lt_irrefl _)
      · exact absurd (hsorted.1 g hmem) (lt_asymm hlt)
      · exact hmem
  · intro hl
    rw [hnot] at hl
    cases hl
  · intro i hi
    cases hi
    refine ⟨⟨f, false⟩, List.getElem?_concat_length, hf, fun g hg => ?_⟩
    rcases hrest g hg with h | h | h
    · exact .inr (.inr h)
    · exact .inl h
    · exact .inr (.inl h)
  · exact fun _ => hs.reads (reads_of_live hlive)
  · exact hs.covered

/-- What is committable after some records were dropped. -/
theorem lookup_dropMessages {messages : List Fetched} {tp : TopicPartition} {offset : ℤ}
    (h : (s.dropMessages cfg messages).cursor.committableOffsets.lookup tp = some offset) :
    s.cursor.committableOffsets.lookup tp = some offset
      ∨ ∃ f ∈ messages, f.tp = tp ∧ f.offset = offset := by
  induction messages generalizing s with
  | nil => exact .inl h
  | cons f messages ih =>
    rcases ih (s := s.markDelivered cfg f) h with hl | ⟨g, hg, htp, hoffset⟩
    · rw [committableOffsets_markDelivered] at hl
      by_cases heq : tp = f.tp
      · rw [heq, AList.lookup_insert, Option.some.injEq] at hl
        exact .inr ⟨f, List.mem_cons_self, heq.symm, hl⟩
      · rw [AList.lookup_insert_ne heq] at hl
        exact .inl hl
    · exact .inr ⟨g, List.mem_cons_of_mem f hg, htp, hoffset⟩

/-- **Dropped records cover what has been handled**, if all that were fetched before them are
handled, or are dropped with them. -/
theorem covered_dropMessages {messages : List Fetched} (hincreasing : Increasing s.history)
    (hcovered : ∀ tp offset, s.cursor.committableOffsets.lookup tp = some offset →
      Handled s.history (tp, offset + 1))
    (hsorted : messages.Pairwise (fun f g => f.seq < g.seq))
    (hcurrent : ∀ f ∈ messages, s.history.Current f)
    (hearlier : ∀ f ∈ messages, ∀ g, s.history.Current g → g.seq < f.seq →
      g ∈ messages ∨ g.seq ∈ s.history.settled) (tp : TopicPartition) (offset : ℤ)
    (h : (s.dropMessages cfg messages).cursor.committableOffsets.lookup tp = some offset) :
    Handled (s.dropMessages cfg messages).history (tp, offset + 1) := by
  induction messages generalizing s with
  | nil => exact hcovered tp offset h
  | cons f messages ih =>
    rw [List.pairwise_cons] at hsorted
    refine ih (s := s.markDelivered cfg f) hincreasing (fun tp offset hl => ?_) hsorted.2
      (fun g hg => hcurrent g (List.mem_cons_of_mem f hg)) (fun g hg g' hg' hlt => ?_) h
    · rw [committableOffsets_markDelivered] at hl
      have hmono : s.history.settled ⊆ (s.markDelivered cfg f).history.settled :=
        List.subset_append_left _ _
      by_cases heq : tp = f.tp
      · rw [heq, AList.lookup_insert, Option.some.injEq] at hl
        rw [heq, ← hl]
        refine hincreasing.handled (hcurrent f List.mem_cons_self) (fun g hg hlt => ?_) rfl rfl rfl
        rcases hearlier f List.mem_cons_self g hg hlt with hmem | hmem
        · rcases List.mem_cons.1 hmem with rfl | hmem
          · exact absurd hlt (lt_irrefl _)
          · exact absurd (hsorted.1 g hmem) (lt_asymm hlt)
        · exact hmem
      · rw [AList.lookup_insert_ne heq] at hl
        exact (hcovered tp offset hl).mono rfl rfl hmono rfl le_rfl
    · rcases hearlier g (List.mem_cons_of_mem f hg) g' hg' hlt with hmem | hmem
      · rcases List.mem_cons.1 hmem with rfl | hmem
        · exact .inr (List.mem_append_right _ (List.mem_singleton.2 rfl))
        · exact .inl hmem
      · exact .inr (List.mem_append_left _ hmem)

/-- **The first records of the batch leave it**, handled or with the stream. -/
theorem InOrder.consume (hs : InOrder s) (hlive : s.live = true) {messages rest : List Fetched}
    (hbatch : messages ++ rest = s.batch) (hreturned : t.history.returned = s.history.returned)
    (hstart : t.history.streamStart = s.history.streamStart)
    (hmono : s.history.settled ⊆ t.history.settled) (hrest : t.batch = rest)
    (hdeliveries : t.deliveries = s.deliveries) (hoperator : t.operator = s.operator)
    (hawaits : t.pc.awaitsBatch = false) (hyields : ∀ i, t.pc ≠ .yielded i)
    (hsettled : t.live = true → ∀ f ∈ messages, f.seq ∈ t.history.settled)
    (hcommittable : ∀ tp offset, t.cursor.committableOffsets.lookup tp = some offset →
      s.cursor.committableOffsets.lookup tp = some offset
        ∨ ∃ f ∈ messages, f.tp = tp ∧ f.offset = offset)
    (hcovered : ∀ tp offset, t.cursor.committableOffsets.lookup tp = some offset →
      Handled t.history (tp, offset + 1)) : InOrder t := by
  have hcurrent : ∀ {g : Fetched}, t.history.Current g ↔ s.history.Current g :=
    current_congr hreturned hstart
  have hsorted := hs.sorted
  rw [← hbatch, List.pairwise_append] at hsorted
  constructor
  · rw [hstart, hreturned]
    exact hs.start
  · intro g g' hg hg'
    exact hs.increasing g g' (hcurrent.1 hg) (hcurrent.1 hg')
  · rw [hrest]
    exact fun g hg => hcurrent.2 (hs.batch g (hbatch ▸ List.mem_append_right _ hg))
  · rw [hrest]
    exact hsorted.2.1
  · rw [hawaits]
    exact nofun
  · rw [hdeliveries]
    exact fun d hd hack hc => hmono (hs.acknowledged d hd hack (hcurrent.1 hc))
  · rw [hdeliveries]
    exact fun d hd hc g hg hlt => hmono (hs.earlier d hd (hcurrent.1 hc) g (hcurrent.1 hg) hlt)
  · intro hl g hg
    rw [hrest]
    rcases hs.live hlive g (hcurrent.1 hg) with hmem | hmem
    · rw [← hbatch] at hmem
      rcases List.mem_append.1 hmem with hmem | hmem
      · exact .inr (hsettled hl g hmem)
      · exact .inl hmem
    · exact .inr (hmono hmem)
  · exact fun i hi => absurd hi (hyields i)
  · intro _ tp htp
    rw [hoperator] at htp ⊢
    obtain ⟨hfetched, hbehind⟩ := hs.reads (reads_of_live hlive) tp htp
    unfold ReadsOn
    rw [hreturned, hstart]
    refine ⟨hfetched, fun offset hl => ?_⟩
    rcases hcommittable tp offset hl with hl | ⟨f, hf, hftp, rfl⟩
    · exact hbehind offset hl
    · obtain ⟨hmem, hge⟩ := hs.batch f (hbatch ▸ List.mem_append_left _ hf)
      exact hfetched f hmem hge hftp
  · exact hcovered

/-- What is left when the poison has been dropped. -/
theorem poisonCaptured_dropped (s : Source) (h : cfg.poison.policy.shouldContinue = true) :
    (s.poisonCaptured cfg).history.returned = s.history.returned
      ∧ (s.poisonCaptured cfg).history.streamStart = s.history.streamStart
      ∧ (s.poisonCaptured cfg).history.settled
        = s.history.settled ++ (s.poisonMessages cfg).map Fetched.seq
      ∧ (s.poisonCaptured cfg).batch = s.batch.drop (s.poisonMessages cfg).length
      ∧ (s.poisonCaptured cfg).deliveries = s.deliveries
      ∧ (s.poisonCaptured cfg).operator = s.operator
      ∧ (s.poisonCaptured cfg).cursor.committableOffsets
        = (s.dropMessages cfg (s.poisonMessages cfg)).cursor.committableOffsets := by
  unfold poisonCaptured
  dsimp only
  rw [if_pos h, toBooks_callCommit, dropMessages_eq, dropMessages_eq]
  exact ⟨rfl, rfl, rfl, rfl, rfl, rfl, rfl⟩

/-- And when the stream has failed. -/
theorem poisonCaptured_failed (s : Source) (h : cfg.poison.policy.shouldContinue = false) :
    (s.poisonCaptured cfg).history.returned = s.history.returned
      ∧ (s.poisonCaptured cfg).history.streamStart = s.history.streamStart
      ∧ (s.poisonCaptured cfg).history.settled = s.history.settled
      ∧ (s.poisonCaptured cfg).batch = s.batch.drop (s.poisonMessages cfg).length
      ∧ (s.poisonCaptured cfg).deliveries = s.deliveries
      ∧ (s.poisonCaptured cfg).operator = s.operator
      ∧ (s.poisonCaptured cfg).cursor.committableOffsets = s.cursor.committableOffsets
      ∧ ((∀ c ∈ s.commits, c.caller.isStream = false) → (s.poisonCaptured cfg).live = false) := by
  unfold poisonCaptured
  dsimp only
  rw [if_neg (by rw [h]; exact Bool.false_ne_true)]
  obtain ⟨_, _, heq⟩ := (s.takePoison (s.poisonMessages cfg)).cursor.exists_currentCheckpoint_eq
  rw [heq]
  refine ⟨rfl, rfl, rfl, rfl, rfl, rfl, rfl, fun hcommits =>
    live_eq_false ?_ (ne_deliver hcommits) rfl⟩
  rintro caller force ⟨⟩ ⟨⟩

/-- **Poison is dropped**, or fails the stream. -/
theorem InOrder.poisonCaptured (hs : InOrder s)
    (hcommits : ∀ c ∈ s.commits, c.caller.isStream = false)
    (hpc : s.pc.inLoop = true) (hnot : s.pc.awaitsBatch = false) :
    InOrder (s.poisonCaptured cfg) := by
  have hlive := live_of_inLoop hpc
  have hbatch := poisonMessages_append s cfg
  have hdrifts := @drifts_poisonCaptured cfg s
  have hawaits : (s.poisonCaptured cfg).pc.awaitsBatch = false := by
    rw [← Bool.not_eq_true]
    intro ha
    have ha := hdrifts.awaitsBatch ha
    rw [hnot] at ha
    cases ha
  have hyields : ∀ i, (s.poisonCaptured cfg).pc ≠ .yielded i := by
    intro i hi
    rw [hdrifts.yielded hi] at hpc
    cases hpc
  have hsorted := hs.sorted
  rw [← hbatch, List.pairwise_append] at hsorted
  have hbefore : ∀ f ∈ s.poisonMessages cfg, ∀ g, s.history.Current g → g.seq < f.seq →
      g ∈ s.poisonMessages cfg ∨ g.seq ∈ s.history.settled := by
    intro f hf g hg hlt
    rcases hs.live hlive g hg with hmem | hmem
    · rw [← hbatch] at hmem
      rcases List.mem_append.1 hmem with hmem | hmem
      · exact .inl hmem
      · exact absurd (hsorted.2.2 f hf g hmem) (lt_asymm hlt)
    · exact .inr hmem
  cases hcontinue : cfg.poison.policy.shouldContinue with
  | true =>
    -- the books are those of the stream that has dropped them
    obtain ⟨hreturned, hstart, hsettled, hrest, hdeliveries, hoperator, hcursor⟩ :=
      poisonCaptured_dropped s hcontinue
    have hcovered := @covered_dropMessages cfg s (s.poisonMessages cfg) hs.increasing hs.covered
      hsorted.1 (fun f hf => hs.batch f (subset_poisonMessages s cfg hf)) hbefore
    refine hs.consume hlive hbatch hreturned hstart ?_ hrest hdeliveries hoperator hawaits hyields
      ?_ ?_ ?_
    · rw [hsettled]
      exact List.subset_append_left _ _
    · intro _ f hf
      rw [hsettled]
      exact List.mem_append_right _ (List.mem_map_of_mem hf)
    · intro tp offset hl
      rw [hcursor] at hl
      exact lookup_dropMessages hl
    · intro tp offset hl
      rw [hcursor] at hl
      refine (hcovered tp offset hl).mono ?_ ?_ ?_ rfl le_rfl
      · rw [hreturned, dropMessages_eq]
      · rw [hstart, dropMessages_eq]
      · rw [hsettled, dropMessages_eq]
        exact List.Subset.refl _
  | false =>
    obtain ⟨hreturned, hstart, hsettled, hrest, hdeliveries, hoperator, hcursor, hdead⟩ :=
      poisonCaptured_failed s hcontinue
    refine hs.consume hlive hbatch hreturned hstart ?_ hrest hdeliveries hoperator hawaits hyields
      ?_ ?_ ?_
    · rw [hsettled]
      exact List.Subset.refl _
    · intro hl
      rw [hdead hcommits] at hl
      cases hl
    · intro tp offset hl
      rw [hcursor] at hl
      exact .inl hl
    · intro tp offset hl
      rw [hcursor] at hl
      refine (hs.covered tp offset hl).mono hreturned hstart ?_ rfl le_rfl
      rw [hsettled]
      exact List.Subset.refl _

/-! ## The other steps -/

/-- Where nothing has been fetched in the stream, and nothing is committable. -/
theorem InOrder.of_fresh (hstart : t.history.streamStart ≤ t.history.returned.length)
    (hnone : ∀ f ∈ t.history.returned, f.seq < t.history.streamStart) (hbatch : t.batch = [])
    (hcommittable : ∀ tp, t.cursor.committableOffsets.lookup tp = none)
    (hyields : ∀ i, t.pc ≠ .yielded i) : InOrder t := by
  have hnot : ∀ f, ¬ t.history.Current f := fun f hf => absurd (hnone f hf.1) (Nat.not_lt.2 hf.2)
  constructor
  · exact hstart
  · exact fun f _ hf => absurd hf (hnot f)
  · rw [hbatch]
    exact nofun
  · rw [hbatch]
    exact .nil
  · exact fun _ => hbatch
  · exact fun d _ _ hc => absurd hc (hnot _)
  · exact fun d _ hc => absurd hc (hnot _)
  · exact fun _ g hg => absurd hg (hnot g)
  · exact fun i hi => absurd hi (hyields i)
  · refine fun _ tp _ => ⟨fun f hf hge => absurd ⟨hf, hge⟩ (hnot f), fun offset hl => ?_⟩
    rw [hcommittable tp] at hl
    cases hl
  · intro tp offset hl
    rw [hcommittable tp] at hl
    cases hl

theorem inOrder_startStream (htracked : Tracked s.toBooks) : InOrder s.startStream := by
  have hboot := bootstraps_startStream s
  have hreturned : s.startStream.history.returned = s.history.returned := by
    rw [hboot.books]
    rfl
  have hstart : s.startStream.history.streamStart = s.history.returned.length := by
    rw [hboot.books]
    rfl
  refine .of_fresh ?_ (fun f hf => ?_) ?_ (fun tp => ?_) (fun i hi => ?_)
  · rw [hstart, hreturned]
  · rw [hreturned] at hf
    have hmem : f.seq ∈ s.history.returned.map Fetched.seq := List.mem_map_of_mem hf
    rw [htracked.seqs] at hmem
    rw [hstart]
    exact List.mem_range.1 hmem
  · rw [hboot.books]
    rfl
  · rw [hboot.books]
    exact AList.lookup_empty tp
  · rcases hboot.pc with hpc | hpc | hpc | hpc <;> rw [hpc] at hi <;> cases hi

/-- **The stream goes on with its bootstrap**, with nothing fetched yet. -/
theorem InOrder.bootstraps (hs : InOrder s) (hnone : ∀ f ∈ s.history.returned,
      f.seq < s.history.streamStart) (hempty : s.cursor.committableOffsets.entries = [])
    (hpc : s.pc.awaitsBatch = true) (h : Bootstraps s t) : InOrder t := by
  refine .of_fresh ?_ ?_ ?_ (fun tp => ?_) (fun i hi => ?_)
  · rw [h.books]
    exact hs.start
  · rw [h.books]
    exact hnone
  · rw [h.books]
    exact hs.awaits hpc
  · rw [h.books]
    exact lookup_of_entries_eq_nil hempty tp
  · rcases h.pc with hpc | hpc | hpc | hpc <;> rw [hpc] at hi <;> cases hi

/-- The next record is asked for after an acknowledgement. -/
theorem InOrder.goOn (hs : InOrder s) {i : ℕ} {d : Delivery} (hpc : s.pc = .yielded i)
    (hd : s.deliveries[i]? = some d) (hack : d.acknowledged = true) :
    InOrder { s.clearActiveDelivery with pc := .advancing } where
  start := hs.start
  increasing := hs.increasing
  batch := hs.batch
  sorted := hs.sorted
  awaits := nofun
  acknowledged := hs.acknowledged
  earlier := hs.earlier
  live _ g hg := by
    obtain ⟨d', hd', hc, hrest⟩ := hs.inHand i hpc
    rw [hd] at hd'
    cases hd'
    rcases hrest g hg with hmem | hmem | rfl
    · exact .inl hmem
    · exact .inr hmem
    · exact .inr (hs.acknowledged d (List.mem_of_getElem? hd) hack hc)
  inHand := nofun
  reads _ := hs.reads (reads_of_yielded hpc)
  covered := hs.covered

/-- Nothing happens but that another coroutine gets its turn. -/
theorem Rests.of_toBooks (hbooks : t.toBooks = s.toBooks) (hlive : t.live = true → s.live = true)
    (hawaits : t.pc.awaitsBatch = true → s.pc.awaitsBatch = true ∨ s.batch = [])
    (hyields : ∀ i, t.pc = .yielded i → s.pc = .yielded i) : Rests s t where
  returned := by rw [hbooks]
  streamStart := by rw [hbooks]
  settled := by rw [hbooks]
  batch := by rw [hbooks]
  deliveries := by rw [hbooks]
  committable _ _ hl := by rwa [hbooks] at hl
  positions tp htp := by
    rw [hbooks] at htp ⊢
    exact ⟨htp, rfl⟩
  live := hlive
  awaits := hawaits
  yields := hyields

/-- The operator is driven, but nothing is sought. -/
theorem Rests.of_unmoved {operator : Operator} (h : s.operator.Unmoved operator) :
    Rests s { s with operator } where
  returned := rfl
  streamStart := rfl
  settled := rfl
  batch := rfl
  deliveries := rfl
  committable _ _ := id
  positions tp htp := by
    have htp : tp ∈ operator.consumer.assignment := htp
    rw [h.assignment] at htp
    exact ⟨htp, congrFun h.position tp⟩
  live := id
  awaits := .inl
  yields _ := id

theorem Rests.trans (h : Rests s t) (h' : Rests t u) : Rests s u where
  returned := h'.returned.trans h.returned
  streamStart := h'.streamStart.trans h.streamStart
  settled := h'.settled.trans h.settled
  batch := h'.batch.trans h.batch
  deliveries := h'.deliveries.trans h.deliveries
  committable tp offset hl := h.committable tp offset (h'.committable tp offset hl)
  positions tp htp := by
    obtain ⟨htp, hposition⟩ := h'.positions tp htp
    exact ⟨(h.positions tp htp).1, hposition.trans (h.positions tp htp).2⟩
  live hl := h.live (h'.live hl)
  awaits ha := by
    rcases h'.awaits ha with ha | hbatch
    · exact h.awaits ha
    · exact .inr (h.batch ▸ hbatch)
  yields i hi := h.yields i (h'.yields i hi)

/-- Partitions go. -/
theorem rests_partitionsLost (s : Source) (ps : Finset TopicPartition) :
    Rests s (s.partitionsLost ps) where
  returned := rfl
  streamStart := rfl
  settled := rfl
  batch := rfl
  deliveries := rfl
  committable _ _ := id
  positions _ htp := ⟨(Finset.mem_sdiff.1 htp).1, rfl⟩
  live := id
  awaits := .inl
  yields _ := id

theorem rests_dropRevoked (s : Source) (ps : Finset TopicPartition) :
    Rests s (s.dropRevoked ps) where
  returned := rfl
  streamStart := rfl
  settled := rfl
  batch := rfl
  deliveries := rfl
  committable tp offset hl := by
    have hl : (Dict.without ps s.cursor.committableOffsets).lookup tp = some offset := hl
    rw [Dict.lookup_without] at hl
    split at hl
    · cases hl
    · exact hl
  positions _ htp := ⟨htp, rfl⟩
  live := id
  awaits := .inl
  yields _ := id

theorem rests_consumerClosed (s : Source) : Rests s s.consumerClosed where
  returned := rfl
  streamStart := rfl
  settled := rfl
  batch := rfl
  deliveries := rfl
  committable _ _ := id
  positions _ htp := absurd htp (Finset.notMem_empty _)
  live := id
  awaits := .inl
  yields _ := id

/-- The stream goes on, or to its end, only if it may. -/
theorem rests_of_drifts (hbooks : t.toBooks = s.toBooks) (hdrifts : Drifts s t)
    (hlive : t.live = true → s.live = true) : Rests s t :=
  .of_toBooks hbooks hlive (fun ha => .inl (hdrifts.awaitsBatch ha))
    (fun _ hi => hdrifts.yielded hi)

/-- A stream that fails or ends goes on only if it waits for a commit. -/
theorem live_of_leaving (hcommits : t.commits = s.commits) (hpc : t.pc.inLoop = false)
    (hcall : ∀ caller force, t.call = some (caller, force) → caller ≠ .deliver)
    (h : t.live = true) : s.live = true := by
  refine live_of (fun force hc => absurd rfl (hcall _ force hc)) (fun c hc hcaller => ?_)
    (fun hloop => ?_) h
  · rw [hcommits] at hc
    exact live_of_commit hc hcaller
  · rw [hpc] at hloop
    cases hloop

/-- **A commit returns.** The stream that has waited for it may go on. -/
theorem Rests.commitReturns (h : Rests s u) (caller : Caller) (hcall : u.call = none)
    (hdeliver : caller = .deliver → s.live = true) : Rests s (u.commitReturns caller) := by
  have hdrifts := drifts_commitReturns u caller
  cases caller with
  | acknowledge | commitNow => exact h
  | deliver =>
    exact ⟨h.returned, h.streamStart, h.settled, h.batch, h.deliveries, h.committable, h.positions,
      fun _ => hdeliver rfl, nofun, nofun⟩
  | handler =>
    refine h.trans (rests_of_drifts rfl hdrifts (live_of_leaving rfl rfl ?_))
    rintro caller force ⟨⟩ ⟨⟩
  | final =>
    refine h.trans (rests_of_drifts rfl hdrifts
      (live_of_leaving rfl rfl (fun caller force hc => ?_)))
    have hc : u.call = some (caller, force) := hc
    rw [hcall] at hc
    cases hc
  | revoked ps => exact (h.trans (rests_dropRevoked u ps)).trans (rests_partitionsLost _ ps)
  | close => exact h.trans (rests_consumerClosed u)

/-- **A commit raises.** -/
theorem Rests.commitRaises (h : Rests s u) (caller : Caller) (hcall : u.call = none) :
    Rests s (u.commitRaises caller) := by
  have hdrifts := drifts_commitRaises u caller
  cases caller with
  | acknowledge | commitNow => exact h
  | deliver | handler =>
    refine h.trans (rests_of_drifts rfl hdrifts (live_of_leaving rfl rfl ?_))
    rintro caller force ⟨⟩ ⟨⟩
  | final =>
    refine h.trans (rests_of_drifts rfl hdrifts
      (live_of_leaving rfl rfl (fun caller force hc => ?_)))
    have hc : u.call = some (caller, force) := hc
    rw [hcall] at hc
    cases hc
  | revoked ps => exact h.trans (rests_partitionsLost u ps)
  | close => exact h.trans (rests_consumerClosed u)

theorem live_dropCommit (i : ℕ) (h : (s.dropCommit i).live = true) : s.live = true := by
  refine live_of (t := s.dropCommit i) (fun _ hc => live_of_call hc) (fun c hc hdeliver => ?_)
    (fun hloop => live_of_inLoop hloop) h
  exact live_of_commit (List.mem_of_mem_eraseIdx hc) hdeliver

theorem mem_or_eq_of_mem_set {i : ℕ} {d d' : Delivery}
    (h : d' ∈ s.deliveries.set i { d with acknowledged := true }) :
    d' ∈ s.deliveries ∨ d'.message = d.message := by
  rcases List.mem_or_eq_of_mem_set h with h | rfl
  · exact .inl h
  · exact .inr rfl

/-- **`_ack`.** -/
theorem InOrder.acknowledge (hs : InOrder s) (htracked : Tracked s.toBooks) {i : ℕ} {d : Delivery}
    (hd : s.deliveries[i]? = some d)
    (hlate : d.message.seq < s.history.streamStart → s.Behind d.message)
    (hbooks : t.toBooks = ({ s with
      deliveries := s.deliveries.set i { d with acknowledged := true } }.markDelivered cfg
        d.message).toBooks)
    (hawaits : t.pc.awaitsBatch = true → s.pc.awaitsBatch = true)
    (hlive : t.live = true → ∀ g, s.history.Current g →
      g ∈ s.batch ∨ g.seq ∈ s.history.settled ∨ g.seq = d.message.seq)
    (hyields : ∀ i, t.pc = .yielded i → s.pc = .yielded i)
    (hreads : t.reads = true → s.reads = true) : InOrder t := by
  have hbehind := hs.behind htracked (List.mem_of_getElem? hd) hlate (h := t.history)
  have hreturned : t.history.returned = s.history.returned := by rw [hbooks]; rfl
  have hstart : t.history.streamStart = s.history.streamStart := by rw [hbooks]; rfl
  have hsettled : t.history.settled = s.history.settled ++ [d.message.seq] := by rw [hbooks]; rfl
  have hdeliveries : t.deliveries = s.deliveries.set i { d with acknowledged := true } := by
    rw [hbooks]
    rfl
  refine hs.handle hreturned hstart hsettled (by rw [hbooks]; rfl) ?_ (fun d' hd' _ => ?_) ?_
    (by rw [hbooks]; rfl) (hbehind hreturned hstart hsettled) hawaits hlive hyields hreads
  · rw [hdeliveries]
    exact messages_set hd
  · rw [hdeliveries] at hd'
    exact mem_or_eq_of_mem_set hd'
  · rw [hbooks]
    exact committableOffsets_markDelivered d.message

/-- **A session begins**, and no stream reads in it yet. -/
theorem InOrder.openConsumer (hs : InOrder s) (hcall : s.call = none)
    (hcommits : ∀ c ∈ s.commits, c.caller.isStream = false) (hpc : s.pc = .idle ∨ s.pc = .ended)
    (position : TopicPartition → ℤ) : InOrder (s.openConsumer cfg position) := by
  have hloop : s.pc.inLoop = false := by rcases hpc with hpc | hpc <;> rw [hpc] <;> rfl
  have hnone : ∀ caller force, (s.openConsumer cfg position).call = some (caller, force) →
      caller ≠ .deliver := by
    intro caller force hc
    have hc : s.call = some (caller, force) := hc
    rw [hcall] at hc
    cases hc
  have hdead : (s.openConsumer cfg position).live = false :=
    live_eq_false hnone (ne_deliver hcommits) hloop
  have hyields : ∀ i, (s.openConsumer cfg position).pc ≠ .yielded i := by
    intro i hi
    have hi : s.pc = .yielded i := hi
    rcases hpc with hpc | hpc <;> rw [hpc] at hi <;> cases hi
  refine ⟨hs.start, hs.increasing, hs.batch, hs.sorted, hs.awaits, hs.acknowledged, hs.earlier,
    fun hl => ?_, fun i hi => absurd hi (hyields i), fun hr => ?_, hs.covered⟩
  · rw [hdead] at hl
    cases hl
  · rcases reads_cases hr with hl | ⟨i, hi⟩
    · rw [hdead] at hl
      cases hl
    · exact absurd hi (hyields i)

/-- **Partitions are assigned**, to be read on from where they have been read. -/
theorem InOrder.partitionsAssigned (hs : InOrder s) {ps : Finset TopicPartition}
    {position : TopicPartition → ℤ}
    (hk : s.reads = true → ∀ tp ∈ ps, s.ReadsOn tp (position tp)) :
    InOrder (s.partitionsAssigned ps position) := by
  let assigned : Source := { s with
    operator := { s.operator with consumer := s.operator.consumer.assign ps position } }
  have hassigned : InOrder assigned := by
    refine ⟨hs.start, hs.increasing, hs.batch, hs.sorted, hs.awaits, hs.acknowledged, hs.earlier,
      hs.live, hs.inHand, fun hr tp htp => ?_, hs.covered⟩
    show s.ReadsOn tp (if tp ∈ ps then position tp else s.operator.consumer.position tp)
    by_cases hmem : tp ∈ ps
    · rw [if_pos hmem]
      exact hk hr tp hmem
    · rw [if_neg hmem]
      exact hs.reads hr tp ((Finset.mem_union.1 htp).resolve_right hmem)
  have hunmoved := Operator.unmoved_handlePartitionsAssigned ps assigned.operator
  exact (Rests.of_unmoved hunmoved.finalState).inOrder hassigned

/-- **One step keeps the order.** -/
theorem inOrder_step (hs : InOrder s) (htracked : Tracked s.toBooks) (halone : Alone s)
    (hk : s.KeepsOrder e) (h : s.step cfg retry e = some t) : InOrder t := by
  have hcommits : s.onTurn → ∀ c ∈ s.commits, c.caller.isStream = false := halone.idle
  -- most steps leave what the order speaks of where it is
  have hrests : ∀ {u : Source}, Rests s u → InOrder u := fun hu => hu.inOrder hs
  cases step_reacts h with
  | idles _ h =>
    exact hrests (.of_toBooks h.books h.wasLive h.awaits h.yields)
  | @errs _ u _ _ _ hpc hupc _ _ hbooks h =>
    have hu : Rests s u := by
      refine ⟨?_, ?_, ?_, ?_, ?_, fun tp offset hl => ?_, fun tp htp => ?_, fun _ => ?_, ?_, ?_⟩
      · rw [hbooks]
      · rw [hbooks]
      · rw [hbooks]
      · rw [hbooks]
      · rw [hbooks]
      · rwa [hbooks] at hl
      · rw [hbooks] at htp ⊢
        exact ⟨htp, rfl⟩
      · exact live_of_inLoop (by rw [hpc]; rfl)
      · rw [hupc]
        exact nofun
      · rw [hupc]
        exact nofun
    exact hrests (hu.trans (.of_toBooks h.books h.wasLive h.awaits h.yields))
  | opens _ hpc =>
    exact hs.openConsumer (call_eq_none_of_step h nofun) (hcommits (onTurn_of_idle hpc)) hpc _
  | closes =>
    have hu : Rests s s.enterCall := rests_of_drifts rfl (.of_eq rfl) (by
      refine live_of nofun (fun c hc hcaller => live_of_commit hc hcaller)
        (fun hloop => live_of_inLoop hloop))
    exact hrests (hu.trans (rests_consumerClosed _))
  | checkpoints =>
    obtain ⟨_, _, heq⟩ := s.cursor.exists_currentCheckpoint_eq
    rw [heq]
    exact hrests ⟨rfl, rfl, rfl, rfl, rfl, fun _ _ => id, fun _ htp => ⟨htp, rfl⟩, id, .inl,
      fun _ => id⟩
  | starts => exact inOrder_startStream htracked
  | refreshes hpc hprobe =>
    obtain ⟨rfl, hempty, hnone⟩ := hk
    cases hprobe
    exact hs.bootstraps hnone hempty (by rw [hpc]; rfl)
      (bootstraps_applyInitialPositioning s.syncAssignment).of_sync
  | positions hpc hprobe =>
    obtain ⟨rfl, hempty, hnone⟩ := hk
    cases hprobe
    exact hs.bootstraps hnone hempty (by rw [hpc]; rfl) (bootstraps_seekAndStart _).of_sync
  -- the steps of the loop have a lemma each
  | receives hpc hfetch hne => exact hs.receive htracked hpc (fetchAll_fetches hfetch) hne
  | emits _ hcall hpc hbatch =>
    have hloop : s.pc.inLoop = true := by rcases hpc with hpc | hpc <;> rw [hpc] <;> rfl
    exact hs.emit hcall (hcommits (onTurn_of_inLoop hloop)) (live_of_inLoop hloop) hbatch
  | goesOn _ hpc hd hack => exact hs.goOn hpc hd hack
  | @passesOver i d _ hpc hd =>
    have hdrifts := @drifts_acknowledgeDelivery cfg s.clearActiveDelivery i d .deliver
    obtain ⟨d', hd', hc, hrest⟩ := hs.inHand i hpc
    rw [hd] at hd'
    cases hd'
    have hlate : d.message.seq < s.history.streamStart → s.Behind d.message :=
      fun hlt => absurd hc.2 (Nat.not_le.2 hlt)
    refine hs.acknowledge htracked hd hlate (toBooks_acknowledgeDelivery _ _ _)
      hdrifts.awaitsBatch (fun _ g hg => ?_) (fun _ hi => hdrifts.yielded hi)
      (fun _ => reads_of_yielded hpc)
    rcases hrest g hg with h | h | rfl
    · exact .inl h
    · exact .inr (.inl h)
    · exact .inr (.inr rfl)
  | @acknowledges i d hcall hd hack =>
    have hdrifts := @drifts_acknowledgeDelivery cfg s i d .acknowledge
    obtain ⟨hpc, hcaller⟩ := @acknowledge_aside cfg s i d hcall
    have hlive : (s.acknowledgeDelivery cfg i d .acknowledge).live = true → s.live = true := by
      refine live_of (fun force hc => ?_) (fun c hc hdeliver => ?_) (fun hloop => ?_)
      · cases hcaller _ _ hc
      · rw [commits_acknowledgeDelivery] at hc
        exact live_of_commit hc hdeliver
      · rw [hpc] at hloop
        exact live_of_inLoop hloop
    refine hs.acknowledge htracked hd (hk d hd hack) (toBooks_acknowledgeDelivery _ _ _)
      hdrifts.awaitsBatch (fun hl g hg => ?_) (fun _ hi => hdrifts.yielded hi)
      (reads_of hlive (fun _ hi => hdrifts.yielded hi))
    exact (hs.live (hlive hl) g hg).imp_right .inl
  | @transacts i d hd =>
    have hbehind := hs.behind htracked (List.mem_of_getElem? hd) (hk d hd)
      (h := (s.transactionCommitted i d).history) rfl rfl rfl
    exact hs.handle (f := d.message) rfl rfl rfl rfl (messages_set hd)
      (fun d' hd' _ => mem_or_eq_of_mem_set hd') rfl rfl hbehind id
      (fun hl g hg => (hs.live hl g hg).imp_right .inl) (fun _ => id) id
  | @captures script stage e hcall hpc =>
    have hu : InOrder (s.runPoison script (s.capture cfg retry stage e)) :=
      hrests ⟨rfl, rfl, rfl, rfl, rfl, fun _ _ => id, fun _ htp => ⟨htp, rfl⟩, id, .inl,
        fun _ => id⟩
    have hpc' : (s.runPoison script (s.capture cfg retry stage e)).pc = .capturing stage e := hpc
    refine hu.poisonCaptured (hcommits (.inl (by rw [hpc]; exact nofun))) ?_ ?_ <;>
      rw [hpc'] <;> rfl
  | @drops e u _ hcall hpc _ hu =>
    have hcounted : InOrder (u.countErrors cfg) := by
      refine hrests ?_
      rcases hu with rfl | rfl <;>
        exact ⟨rfl, rfl, rfl, rfl, rfl, fun _ _ => id, fun _ htp => ⟨htp, rfl⟩, id, .inl,
          fun _ => id⟩
    have hpc' : (u.countErrors cfg).pc = .deserializing := by rcases hu with rfl | rfl <;> exact hpc
    have hnone : ∀ c ∈ (u.countErrors cfg).commits, c.caller.isStream = false := by
      rcases hu with rfl | rfl <;> exact hcommits (.inl (by rw [hpc]; exact nofun))
    refine hcounted.poisonCaptured hnone ?_ ?_ <;> rw [hpc'] <;> rfl
  | @captureFails script stage e _ hpc =>
    have hlive : s.live = true := live_of_inLoop (by rw [hpc]; rfl)
    exact hrests ⟨rfl, rfl, rfl, rfl, rfl, fun _ _ => id, fun _ htp => ⟨htp, rfl⟩, fun _ => hlive,
      nofun, nofun⟩
  | @commits caller force hcall =>
    have hdrifts := drifts_issueCommit s.enterCall caller
    have hlive : (s.enterCall.issueCommit caller).live = true → s.live = true := by
      refine live_of nofun (fun c hc hdeliver => ?_) (fun hloop => ?_)
      · rcases List.mem_append.1 hc with hc | hc
        · exact live_of_commit hc hdeliver
        · rw [List.mem_singleton.1 hc] at hdeliver
          have hdeliver : caller = .deliver := hdeliver
          exact live_of_call (hdeliver ▸ hcall)
      · cases caller <;> first | exact live_of_inLoop hloop | cases hloop
    exact hrests ⟨rfl, rfl, rfl, rfl, rfl, fun _ _ => id, fun _ htp => ⟨htp, rfl⟩, hlive,
      fun ha => .inl (hdrifts.awaitsBatch ha), fun _ hi => hdrifts.yielded hi⟩
  | commitsNow =>
    have hlive : (s.issueCommit .commitNow).live = true → s.live = true := by
      refine live_of (fun force hc => live_of_call hc) (fun c hc hdeliver => ?_)
        (fun hloop => live_of_inLoop hloop)
      rcases List.mem_append.1 hc with hc | hc
      · exact live_of_commit hc hdeliver
      · rw [List.mem_singleton.1 hc] at hdeliver
        cases hdeliver
    exact hrests ⟨rfl, rfl, rfl, rfl, rfl, fun _ _ => id, fun _ htp => ⟨htp, rfl⟩, hlive, .inl,
      fun _ => id⟩
  | @committed i c hcall hc =>
    have hu : Rests s ((s.dropCommit i).recordCommit c.request) :=
      ⟨rfl, rfl, rfl, rfl, rfl, fun _ _ => id, fun _ htp => ⟨htp, rfl⟩,
        fun hl => live_dropCommit i (s := s) hl, .inl, fun _ => id⟩
    exact hrests (hu.commitReturns _ hcall
      (fun hdeliver => live_of_commit (List.mem_of_getElem? hc) hdeliver))
  | @commitFailed i c hcall =>
    have hu : Rests s (s.dropCommit i) :=
      ⟨rfl, rfl, rfl, rfl, rfl, fun _ _ => id, fun _ htp => ⟨htp, rfl⟩, live_dropCommit i, .inl,
        fun _ => id⟩
    exact hrests (hu.commitRaises _ hcall)
  | revokes =>
    have hu : Rests s s.enterCall := rests_of_drifts rfl (.of_eq rfl) (by
      refine live_of nofun (fun c hc hcaller => live_of_commit hc hcaller)
        (fun hloop => live_of_inLoop hloop))
    exact hrests ((hu.trans (rests_dropRevoked _ _)).trans (rests_partitionsLost _ _))
  | assigns => exact hs.partitionsAssigned hk
  | @pauses partitions =>
    exact hrests (.of_unmoved ((Operator.unmoved_pause partitions) s.operator).finalState)
  | @unpauses partitions =>
    exact hrests (.of_unmoved ((Operator.unmoved_resume partitions) s.operator).finalState)
  | beginsSeek =>
    rcases beginSeek_cases s.syncAssignment _ with heq | ⟨_, heq⟩ <;> rw [heq] <;>
      exact hrests ⟨rfl, rfl, rfl, rfl, rfl, fun _ _ => id, fun _ htp => ⟨htp, rfl⟩, id, .inl,
        fun _ => id⟩
  | seeks => exact absurd hk id
  | probesForSeek => exact absurd hk id
  | probesToBeginSeek => exact absurd hk id
  | seeked => exact absurd hk id
  | seekFailed =>
    obtain rfl : _ = ∅ := hk
    rw [Finset.inter_empty, moveConsumer_empty]
    exact hrests ⟨rfl, rfl, rfl, rfl, rfl, fun _ _ => id, fun _ htp => ⟨htp, rfl⟩, id, .inl,
      fun _ => id⟩
  | _ =>
    exact hrests ⟨rfl, rfl, rfl, rfl, rfl, fun _ _ => id, fun _ htp => ⟨htp, rfl⟩, id, .inl,
      fun _ => id⟩

/-! ## The commits -/

/-- **One step commits only what covers what has been handled.** -/
theorem commitsCovered_step (hs : InOrder s) (hk : KeepsCovered cfg s e)
    (h : s.step cfg retry e = some t) : CommitsCovered s t := by
  intro c hc
  rcases issued_step h with hnone | ⟨hissues, _, caller, hbooks⟩
  · rw [hnone] at hc
    cases hc
  · rw [issued_of_books hbooks, List.mem_singleton] at hc
    subst hc
    have hnamed : ∀ n ∈ (CommitRequest.of s.cursor.buildCommitOffsets).named,
        Handled s.history n := by
      intro n hn
      obtain ⟨offset, hl, hoffset⟩ := mem_named_buildCommitOffsets_iff.1 hn
      refine (hs.covered n.1 offset hl).mono rfl rfl (List.Subset.refl _) rfl ?_
      show n.2 ≤ offset + 1
      omega
    unfold CoversHandled
    dsimp only
    cases hrequest : CommitRequest.of s.cursor.buildCommitOffsets with
    | offsets named =>
      rw [hrequest] at hnamed
      exact hnamed
    | consumed =>
      have hempty : s.cursor.committableOffsets.entries = [] := by
        by_contra hne
        unfold CommitRequest.of at hrequest
        rw [if_pos (entries_buildCommitOffsets_ne_nil hne)] at hrequest
        cases hrequest
      have hhandled : s.AllHandled := (hk.2 hissues).resolve_left (fun hne => hne hempty)
      intro tp htp f hf hge hftp _
      have hftp : f.tp = tp := hftp
      exact hhandled f hf hge (hftp ▸ htp)

/-- **No commit covers a record that has not been handled, in every run** in which no operator
seeks and no partition is assigned to be read again, no probe of a stream returns a record, the
records of earlier streams are behind when they are acknowledged, and a commit is issued only with
some committable offset or with everything handled. -/
theorem covered_of_keepsCovered (cfg : SourceConfig) (retry : KafkaSink.RetryAsync DLQRecord)
    (es : List Event)
    (h : AllSteps (step cfg retry) (fun s e _ => KeepsCovered cfg s e) (Source.new cfg) es) :
    AllSteps (step cfg retry) (fun s _ t => CommitsCovered s t) (Source.new cfg) es := by
  have hinitial : Tracked (Source.new cfg).toBooks := by
    refine ⟨rfl, List.Subset.refl _, List.Subset.refl _, nofun, fun tp offset hl => ?_⟩
    cases hl
  have hfresh : InOrder (Source.new cfg) := by
    refine .of_fresh (Nat.le_refl _) nofun rfl (fun tp => AList.lookup_empty tp) nofun
  refine allSteps_of_step (I := fun s => Tracked s.toBooks ∧ Alone s ∧ InOrder s) ?_
    ⟨hinitial, .of_none nofun, hfresh⟩ h
  rintro s e t ⟨htracked, halone, hs⟩ hk hstep
  exact ⟨⟨tracked_step htracked hstep, alone_step halone hstep,
    inOrder_step hs htracked halone hk.1 hstep⟩, commitsCovered_step hs hk hstep⟩

/-- A source with one partition, assigned by hand. -/
def ordersConfig : SourceConfig where
  assignments := {⟨"orders", 0⟩}

/-- It is resumed from a checkpoint of another one, and its stream probes for that. -/
def probedForPayments (message : Option ConsumerRecord) : List Event :=
  [.prepareResume (some ⟨some ⟨"payments", 0, 41⟩, none⟩), .open (fun _ => 0), .stream,
    .probed message]

/-- The first two records are handed out and acknowledged, and the stream is closed. -/
def handledTwo : List Event :=
  [.polled [{ tp := ⟨"orders", 0⟩, offset := 0 }, { tp := ⟨"orders", 0⟩, offset := 1 }],
    .deserialized, .acknowledge 0, .proceed, .next, .proceed, .deserialized, .acknowledge 1,
    .proceed, .closeStream, .proceed, .committed 0]

/-- The probe returns nothing, and every commit covers what was handled. -/
theorem covered_handledTwo :
    AllSteps (step ordersConfig (KafkaSink.RetryAsync.upTo DLQRecord 1))
      (fun s _ t => CommitsCovered s t) (Source.new ordersConfig)
      (probedForPayments none ++ handledTwo) := by
  refine covered_of_keepsCovered ordersConfig (KafkaSink.RetryAsync.upTo DLQRecord 1)
    (probedForPayments none ++ handledTwo) ?_
  decide

/-- **The probe returns the first record**, which is dropped. The second is handed out and
acknowledged, and its commit covers the first. -/
theorem not_covered_probedRecord :
    ¬ AllSteps (step ordersConfig (KafkaSink.RetryAsync.upTo DLQRecord 1))
      (fun s _ t => CommitsCovered s t) (Source.new ordersConfig)
      (probedForPayments (some { tp := ⟨"orders", 0⟩, offset := 0 })
        ++ [.polled [{ tp := ⟨"orders", 0⟩, offset := 1 }], .deserialized, .acknowledge 0, .proceed,
          .closeStream, .proceed]) := by
  decide

end Source

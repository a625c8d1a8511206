import Mathlib.Data.Prod.Lex
import AgoraPlugins.Redis.StreamSource

/-!
# The checkpoint of a stream

A checkpoint has the message that was last taken up, whichever command had handed it out.
`XREADGROUP` goes forward from where the group is; `XAUTOCLAIM` goes back to what is
pending, or, when a resume has set the group back, ahead of it, so that what is read as
new next is older.

So the checkpoint does not go back as long as no reply has an entry that is older than the
message it has by then. Without a reclaim none does.
-/

open Machine

namespace StreamSource

variable {Id : Type} [LinearOrder Id] (cfg : Config)

/-! ## The law -/

namespace State

/-- The message of `current_checkpoint` has not gone back. -/
def CheckpointGrows (s t : State Id) : Prop := s.lastMessageId ≤ t.lastMessageId

/-- **The checkpoint covers what has been emitted**: a resume from it, which sets the group
to its message, does not set it before any of these. -/
def CheckpointCovers (s : State Id) : Prop := ∀ id ∈ s.emitted, id ≤ s.lastMessageId

/-- **The reply that comes in has nothing older** than the message of the checkpoint. -/
def AnswersNewer (s : State Id) : Event Id → Prop
  | .answered => ∀ id ∈ s.pc.inHand, s.lastMessageId ≤ id
  | _ => True

end State

/-- The entries that have come in and are not yet taken up. -/
def Pc.batch : Pc Id → List Id
  | .yielding batch => batch
  | .reclaiming _ | .reading _ | .recovering _ | .idle | .ended => []

omit [LinearOrder Id] in
theorem Pc.batch_sublist_inHand (pc : Pc Id) : pc.batch.Sublist pc.inHand := by
  cases pc with
  | yielding batch => exact List.Sublist.refl _
  | _ => exact List.nil_sublist _

omit [LinearOrder Id] in
theorem Pc.batch_eq_nil {pc : Pc Id} (h : pc.inHand = []) : pc.batch = [] :=
  List.sublist_nil.1 (h ▸ pc.batch_sublist_inHand)

namespace State

/-- **The invariant**: the entries in hand are in order, from the checkpoint on once they
have come in. -/
structure InOrder (s : State Id) : Prop where
  sorted : s.pc.inHand.Pairwise (· < ·)
  newer : ∀ id ∈ s.pc.batch, s.lastMessageId ≤ id
  covers : s.CheckpointCovers

theorem inOrder_init (group : Group Id) : (init group).InOrder := ⟨.nil, nofun, nofun⟩

/-- A step takes nothing up. -/
theorem InOrder.of_frame {s t : State Id} (h : s.InOrder) (hsorted : t.pc.inHand.Pairwise (· < ·))
    (hnewer : ∀ id ∈ t.pc.batch, s.lastMessageId ≤ id)
    (hlast : t.lastMessageId = s.lastMessageId) (hemitted : t.emitted = s.emitted) :
    t.InOrder ∧ s.CheckpointGrows t := by
  refine ⟨⟨hsorted, ?_, fun id hid => ?_⟩, hlast.ge⟩
  · rw [hlast]
    exact hnewer
  · rw [hlast]
    rw [hemitted] at hid
    exact h.covers id hid

/-- Entries come in with a reply only. -/
theorem batch_sublist_of_step {s t : State Id} {e : Event Id} (he : e.isQuiet = true)
    (hne : e ≠ .answered) (hs : StreamSource.step cfg s e = some t) :
    t.pc.batch.Sublist s.pc.batch := by
  have hnil : t.pc.inHand = [] → t.pc.batch.Sublist s.pc.batch := by
    intro hinHand
    rw [Pc.batch_eq_nil hinHand]
    exact List.nil_sublist _
  have hloop : ∀ u : State Id, t = u.loop cfg → t.pc.inHand = [] := by
    intro u hu
    obtain ⟨n, pc, heq, hinHand, _⟩ := u.loop_eq cfg
    rw [hu, heq]
    exact hinHand
  cases e with
  | executed => cases he
  | executedAdrift i => cases he
  | raised retryable => cases he
  | taken readable => cases he
  | answered => exact absurd rfl hne
  | stream resume =>
    unfold StreamSource.step State.stream at hs
    dsimp only at hs
    split at hs
    next =>
      refine hnil ?_
      cases resume with
      | none => exact hloop s (Option.some.inj hs).symm
      | some id =>
        dsimp only at hs
        split at hs
        next => exact Option.some.inj hs ▸ rfl
        next => exact hloop _ (Option.some.inj hs).symm
    next => cases hs
  | recovered =>
    unfold StreamSource.step State.recover at hs
    dsimp only at hs
    split at hs
    next =>
      refine hnil ?_
      rw [Option.some.injEq] at hs
      rcases State.read_eq { s with client := true, consecutiveReclaimBatchCount := 0 }
        with heq | heq <;> rw [← hs, heq] <;> rfl
    next => exact hnil (hloop _ (Option.some.inj hs).symm)
    next => cases hs
  | notRecovered =>
    unfold StreamSource.step State.giveUp at hs
    dsimp only at hs
    split at hs
    next => exact hnil (Option.some.inj hs ▸ rfl)
    next => cases hs
  | exhausted =>
    unfold StreamSource.step State.exhaust at hs
    dsimp only at hs
    split at hs
    next => exact hnil (hloop s (Option.some.inj hs).symm)
    next => cases hs
  | stopped =>
    unfold StreamSource.step State.stop at hs
    dsimp only at hs
    split at hs
    next => exact hnil (Option.some.inj hs ▸ rfl)
    next => cases hs
  | added id =>
    obtain ⟨group, _, rfl⟩ := Option.map_eq_some_iff.1 hs
    exact List.Sublist.refl _
  | _ =>
    cases Option.some.inj hs
    exact List.Sublist.refl _

/-- **A quiet step** keeps the order, if its reply has newer entries. -/
theorem InOrder.quiet {s t : State Id} (h : s.InOrder) {e : Event Id} (he : e.isQuiet = true)
    (hnewer : s.AnswersNewer e) (hs : StreamSource.step cfg s e = some t) :
    t.InOrder ∧ s.CheckpointGrows t := by
  have hq : s.Quiet t := quiet_of_step cfg he hs
  refine h.of_frame (h.sorted.sublist hq.inHand_sublist) (fun id hid => ?_) hq.lastMessageId
    hq.emitted
  by_cases hanswered : e = .answered
  · subst hanswered
    exact hnewer id (hq.inHand_sublist.subset (t.pc.batch_sublist_inHand.subset hid))
  · exact h.newer id ((batch_sublist_of_step cfg he hanswered hs).subset hid)

/-- A command hands out nothing by itself. -/
theorem InOrder.execute {s t : State Id} (h : s.InOrder)
    (hs : s.execute cfg s.pc = some t) : t.InOrder ∧ s.CheckpointGrows t := by
  unfold State.execute at hs
  split at hs
  next =>
    cases hs
    exact h.of_frame (s.group.pairwise_undelivered _) nofun rfl rfl
  next =>
    cases hs
    exact h.of_frame (s.group.pairwise_claimable _ _ _) nofun rfl rfl
  next => cases hs

theorem InOrder.executeCall {s : State Id} (h : s.InOrder) (call : Call Id) (i : ℕ) :
    InOrder { s.executeCall cfg call with adrift := s.adrift.eraseIdx i }
      ∧ s.CheckpointGrows { s.executeCall cfg call with adrift := s.adrift.eraseIdx i } := by
  cases call with
  | read => exact h.of_frame h.sorted h.newer rfl rfl
  | reclaim cursor => exact h.of_frame h.sorted h.newer rfl rfl

theorem InOrder.fail {s t : State Id} (h : s.InOrder) {retryable : Bool}
    (hs : s.fail retryable s.pc = some t) : t.InOrder ∧ s.CheckpointGrows t := by
  obtain ⟨adrift, pc, client, rfl, hinHand, _⟩ := fail_eq hs
  refine h.of_frame ?_ (fun id hid => ?_) rfl rfl
  · rw [hinHand]
    exact .nil
  · rw [Pc.batch_eq_nil hinHand] at hid
    cases hid

/-- **An entry is taken up**: the rest of those in hand is beyond it, and what has been
emitted is not. -/
theorem InOrder.take {s t : State Id} (h : s.InOrder) {readable : Bool}
    (hs : s.take cfg readable s.pc = some t) : t.InOrder ∧ s.CheckpointGrows t := by
  unfold State.take at hs
  split at hs
  next id rest hpc =>
    have hsorted : (id :: rest).Pairwise (· < ·) := by
      have hsorted := h.sorted
      rwa [hpc] at hsorted
    have hle : s.lastMessageId ≤ id := h.newer id (by rw [hpc]; exact List.mem_cons_self)
    have hrest : ∀ id' ∈ rest, (id : WithBot Id) ≤ id' := fun id' hid' =>
      WithBot.coe_le_coe.2 (List.rel_of_pairwise_cons hsorted hid').le
    have hcovers : ∀ id' ∈ s.emitted, (id' : WithBot Id) ≤ id := fun id' hid' =>
      (h.covers id' hid').trans hle
    split at hs
    next =>
      cases hs
      refine ⟨⟨hsorted.of_cons, hrest, fun id' hid' => ?_⟩, hle⟩
      rcases List.mem_append.1 hid' with hid' | hid'
      · exact hcovers id' hid'
      · rw [List.mem_singleton.1 hid']
    next =>
      split at hs
      next =>
        cases hs
        exact ⟨⟨hsorted.of_cons, hrest, hcovers⟩, hle⟩
      next =>
        cases hs
        exact ⟨⟨.nil, nofun, hcovers⟩, hle⟩
  next => cases hs

/-- **One step** keeps the invariant, if nothing older comes in with it, and the checkpoint
does not go back. -/
theorem InOrder.step {s t : State Id} (h : s.InOrder) {e : Event Id}
    (he : s.AnswersNewer e) (hs : StreamSource.step cfg s e = some t) :
    t.InOrder ∧ s.CheckpointGrows t := by
  cases hquiet : e.isQuiet with
  | true => exact h.quiet cfg hquiet he hs
  | false =>
    cases e with
    | executed => exact h.execute cfg hs
    | executedAdrift i =>
      obtain ⟨call, _, rfl⟩ := Option.map_eq_some_iff.1 hs
      exact h.executeCall cfg call i
    | raised retryable => exact h.fail hs
    | taken readable => exact h.take cfg hs
    | _ => cases hquiet

end State

/-! ## Over a run -/

/-- **The checkpoint never goes back**, and covers what has been emitted, in every run in
which nothing older than its message comes in, wherever the group is to begin with. -/
theorem checkpoint_grows_and_covers (cfg : Config) (group : Group Id) (es : List (Event Id))
    (h : AllSteps (step cfg) (fun s e _ => s.AnswersNewer e) (.init group) es) :
    AllSteps (step cfg) (fun s _ t => s.CheckpointGrows t) (.init group) es
      ∧ AllStates (step cfg) State.CheckpointCovers (.init group) es :=
  ⟨allSteps_of_step (fun _ _ _ hi he hs => hi.step cfg he hs) (State.inOrder_init group) h,
    (allStates_of_step (fun _ _ _ hi he hs => (hi.step cfg he hs).1)
      (State.inOrder_init group) h).mono (fun _ hi => hi.covers)⟩

/-! ## Without a reclaim -/

namespace State

/-- **Without a reclaim the source only goes forward**: what has been taken up, then what
is in hand, then what the group has yet to deliver. -/
structure Forward (s : State Id) : Prop where
  idle : s.pc = .idle → s.lastMessageId = ⊥
  reclaiming : ∀ reply, s.pc ≠ .reclaiming reply
  delivered : s.lastMessageId ≤ s.group.lastDelivered
  inHand : ∀ id ∈ s.pc.inHand, s.lastMessageId ≤ id ∧ id ≤ s.group.lastDelivered
  sorted : s.pc.inHand.Pairwise (· < ·)

theorem forward_init (group : Group Id) : (init group).Forward :=
  ⟨fun _ => rfl, nofun, bot_le, nofun, .nil⟩

/-- The group goes forward, and nothing comes in. -/
theorem Forward.of_frame {s t : State Id} (h : s.Forward) (hidle : t.pc = .idle → s.pc = .idle)
    (hreclaiming : ∀ reply, t.pc ≠ .reclaiming reply) (hinHand : t.pc.inHand.Sublist s.pc.inHand)
    (hlast : t.lastMessageId = s.lastMessageId)
    (hgroup : s.group.lastDelivered ≤ t.group.lastDelivered) : t.Forward := by
  refine ⟨fun hpc => ?_, hreclaiming, ?_, fun id hid => ?_, h.sorted.sublist hinHand⟩
  · rw [hlast]
    exact h.idle (hidle hpc)
  · rw [hlast]
    exact h.delivered.trans hgroup
  · rw [hlast]
    obtain ⟨hle, hdelivered⟩ := h.inHand id (hinHand.subset hid)
    exact ⟨hle, hdelivered.trans hgroup⟩

theorem Forward.loop (hcfg : cfg.reclaimIdleMs = none) {s : State Id} (h : s.Forward) :
    (s.loop cfg).Forward := by
  obtain ⟨n, pc, heq, hinHand, hpcs⟩ := s.loop_eq cfg
  rw [heq]
  rcases hpcs hcfg with rfl | rfl <;>
    exact h.of_frame nofun nofun (List.nil_sublist _) rfl le_rfl

theorem Forward.read {s : State Id} (h : s.Forward) : s.read.Forward := by
  rcases s.read_eq with heq | heq <;> rw [heq] <;>
    exact h.of_frame nofun nofun (List.nil_sublist _) rfl le_rfl

theorem Forward.end {s : State Id} (h : s.Forward) : (s.withPc .ended).Forward :=
  h.of_frame nofun nofun (List.nil_sublist _) rfl le_rfl

theorem Forward.stream (hcfg : cfg.reclaimIdleMs = none) {s t : State Id} (h : s.Forward)
    {resume : Option Id} (hs : s.stream cfg resume s.pc = some t) : t.Forward := by
  unfold State.stream at hs
  split at hs
  next hpc =>
    rw [Option.some.injEq] at hs
    subst hs
    cases resume with
    | none => exact h.loop cfg hcfg
    | some id =>
      dsimp only
      split
      next => exact h.end
      next =>
        -- before the stream there is no checkpoint that the group could be set before
        refine Forward.loop cfg hcfg ⟨h.idle, h.reclaiming, ?_, fun id' hid' => ?_, h.sorted⟩
        · show s.lastMessageId ≤ _
          rw [h.idle hpc]
          exact bot_le
        · have hinHand : id' ∈ s.pc.inHand := hid'
          rw [hpc] at hinHand
          cases hinHand
  next => cases hs

/-- What is read as new is beyond what had been delivered. -/
theorem Forward.execute {s t : State Id} (h : s.Forward) (hs : s.execute cfg s.pc = some t) :
    t.Forward := by
  unfold State.execute at hs
  split at hs
  next hpc =>
    cases hs
    obtain ⟨hle, hdelivered⟩ := s.group.le_lastDelivered_readGroup true cfg.batchSize
    refine ⟨nofun, nofun, h.delivered.trans hle, fun id hid => ⟨?_, hdelivered id hid⟩,
      s.group.pairwise_undelivered _⟩
    exact h.delivered.trans (s.group.lt_of_mem_undelivered hid).le
  next hpc => exact absurd hpc (h.reclaiming _)
  next => cases hs

/-- A call on its own delivers entries that come later. -/
theorem Forward.executeCall {s : State Id} (h : s.Forward) (call : Call Id) (i : ℕ) :
    Forward { s.executeCall cfg call with adrift := s.adrift.eraseIdx i } := by
  cases call with
  | read =>
    exact h.of_frame id h.reclaiming (List.Sublist.refl _) rfl
      (s.group.le_lastDelivered_readGroup true cfg.batchSize).1
  | reclaim cursor => exact h.of_frame id h.reclaiming (List.Sublist.refl _) rfl le_rfl

/-- **A reply** has what was delivered after all before. -/
theorem Forward.answer (hcfg : cfg.reclaimIdleMs = none) {s t : State Id} (h : s.Forward)
    (hs : s.answer cfg s.pc = some t) : t.Forward := by
  unfold State.answer at hs
  split at hs
  next => exact Option.some.inj hs ▸ h.loop cfg hcfg
  next id rest hpc =>
    cases hs
    refine h.of_frame nofun nofun ?_ rfl le_rfl
    rw [hpc]
    exact List.Sublist.refl _
  next hpc => exact absurd hpc (h.reclaiming _)
  next hpc => exact absurd hpc (h.reclaiming _)
  next => cases hs

/-- A failure ends the stream, or lets it read again. -/
theorem Forward.fail {s t : State Id} (h : s.Forward) {retryable : Bool}
    (hs : s.fail retryable s.pc = some t) : t.Forward := by
  obtain ⟨adrift, pc, client, rfl, hinHand, _, _, hreclaiming, hidle⟩ := fail_eq hs
  exact h.of_frame (fun hpc => absurd hpc hidle) hreclaiming (hinHand ▸ List.nil_sublist _)
    rfl le_rfl

theorem Forward.recover (hcfg : cfg.reclaimIdleMs = none) {s t : State Id} (h : s.Forward)
    (hs : s.recover cfg s.pc = some t) : t.Forward := by
  have hframe : ∀ n, Forward { s with client := true, consecutiveReclaimBatchCount := n } :=
    fun n => h.of_frame id h.reclaiming (List.Sublist.refl _) rfl le_rfl
  unfold State.recover at hs
  split at hs
  next => exact Option.some.inj hs ▸ (hframe 0).read
  next => exact Option.some.inj hs ▸ (hframe _).loop cfg hcfg
  next => cases hs

theorem Forward.take {s t : State Id} (h : s.Forward) {readable : Bool}
    (hs : s.take cfg readable s.pc = some t) : t.Forward := by
  unfold State.take at hs
  split at hs
  next id rest hpc =>
    have hsorted : (id :: rest).Pairwise (· < ·) := by
      have hsorted := h.sorted
      rwa [hpc] at hsorted
    have hdelivered : ∀ id' ∈ id :: rest, (id' : WithBot Id) ≤ s.group.lastDelivered :=
      fun id' hid' => (h.inHand id' (by rw [hpc]; exact hid')).2
    have hrest : ∀ id' ∈ rest, (id : WithBot Id) ≤ id' ∧ id' ≤ s.group.lastDelivered :=
      fun id' hid' => ⟨WithBot.coe_le_coe.2 (List.rel_of_pairwise_cons hsorted hid').le,
        hdelivered id' (List.mem_cons_of_mem _ hid')⟩
    have hid : (id : WithBot Id) ≤ s.group.lastDelivered := hdelivered id List.mem_cons_self
    split at hs
    next =>
      cases hs
      exact ⟨nofun, nofun, hid, hrest, hsorted.of_cons⟩
    next =>
      split at hs
      next =>
        cases hs
        exact ⟨nofun, nofun, hid, hrest, hsorted.of_cons⟩
      next =>
        cases hs
        exact ⟨nofun, nofun, hid, nofun, .nil⟩
  next => cases hs

/-- **One step goes forward**, if nothing is reclaimed. -/
theorem Forward.step (hcfg : cfg.reclaimIdleMs = none) {s t : State Id} (h : s.Forward)
    {e : Event Id} (hs : StreamSource.step cfg s e = some t) : t.Forward := by
  have hsame : ∀ group : Group Id, s.group.lastDelivered ≤ group.lastDelivered →
      Forward { s with group := group } :=
    fun group hgroup => h.of_frame id h.reclaiming (List.Sublist.refl _) rfl hgroup
  cases e with
  | stream resume => exact h.stream cfg hcfg hs
  | executed => exact h.execute cfg hs
  | executedAdrift i =>
    obtain ⟨call, _, rfl⟩ := Option.map_eq_some_iff.1 hs
    exact h.executeCall cfg call i
  | answered => exact h.answer cfg hcfg hs
  | raised retryable => exact h.fail hs
  | recovered => exact h.recover cfg hcfg hs
  | notRecovered =>
    unfold StreamSource.step State.giveUp at hs
    dsimp only at hs
    split at hs
    next => exact Option.some.inj hs ▸ h.end
    next => cases hs
  | taken readable => exact h.take cfg hs
  | exhausted =>
    unfold StreamSource.step State.exhaust at hs
    dsimp only at hs
    split at hs
    next => exact Option.some.inj hs ▸ h.loop cfg hcfg
    next => cases hs
  | stopped =>
    unfold StreamSource.step State.stop at hs
    dsimp only at hs
    split at hs
    next => exact Option.some.inj hs ▸ h.end
    next => cases hs
  | clientGone =>
    exact Option.some.inj hs ▸ h.of_frame id h.reclaiming (List.Sublist.refl _) rfl le_rfl
  | clientBuilt =>
    exact Option.some.inj hs ▸ h.of_frame id h.reclaiming (List.Sublist.refl _) rfl le_rfl
  | acknowledged id => exact Option.some.inj hs ▸ hsame _ le_rfl
  | added id =>
    obtain ⟨group, hadd, rfl⟩ := Option.map_eq_some_iff.1 hs
    refine hsame group ?_
    unfold Group.add at hadd
    split at hadd
    next => exact Option.some.inj hadd ▸ le_rfl
    next => cases hadd
  | readElsewhere count =>
    exact Option.some.inj hs ▸ hsame _ (s.group.le_lastDelivered_readGroup false count).1
  | claimedElsewhere id => exact Option.some.inj hs ▸ hsame _ le_rfl
  | elapsed ms => exact Option.some.inj hs ▸ hsame _ le_rfl

end State

/-- **A source that does not reclaim** is never handed anything older than the message of
its checkpoint, so the checkpoint never goes back. -/
theorem allSteps_answersNewer_of_reclaimIdleMs (hcfg : cfg.reclaimIdleMs = none)
    (group : Group Id) (es : List (Event Id)) :
    AllSteps (step cfg) (fun s e _ => s.AnswersNewer e) (.init group) es := by
  have hstep : ∀ (s : State Id) (e : Event Id) (t : State Id), s.Forward →
      step cfg s e = some t → t.Forward ∧ s.AnswersNewer e := by
    intro s e t h hs
    refine ⟨h.step cfg hcfg hs, ?_⟩
    cases e with
    | answered => exact fun id hid => (h.inHand id hid).1
    | _ => trivial
  exact allSteps_of_invariant hstep (State.forward_init group) es

/-- The ids of Redis: a time and a sequence number. -/
abbrev MessageId := ℕ ×ₗ ℕ

/-- Two entries, the first of them delivered to another consumer. -/
def Group.sample : Group MessageId where
  entries := [⟨toLex (1, 0), some ⟨false, 0⟩⟩, ⟨toLex (1, 1), none⟩]
  lastDelivered := ((toLex (1, 0) : MessageId) : WithBot MessageId)
  consumers := 2
  now := 0
  sorted := by decide

/-- Two entries that were delivered to this consumer before a resume set the group back. -/
def Group.setBack : Group MessageId where
  entries := [⟨toLex (1, 0), some ⟨true, 0⟩⟩, ⟨toLex (1, 1), some ⟨true, 0⟩⟩]
  lastDelivered := ((toLex (1, 1) : MessageId) : WithBot MessageId)
  consumers := 1
  now := 1
  sorted := by decide

/-- A source that reads ten entries at once, and reclaims what has been idle for a moment. -/
def Config.sample : Config where
  batchSize := 10
  decodeResponses := true
  logAndContinue := false
  reclaimIdleMs := some 1
  reclaimBatchSize := 10
  maxConsecutiveReclaimBatches := none
  reclaimBatchSize_pos := by decide
  maxConsecutiveReclaimBatches_pos := nofun

instance (s t : State Id) : Decidable (s.CheckpointGrows t) :=
  inferInstanceAs (Decidable (s.lastMessageId ≤ t.lastMessageId))

instance (s : State Id) (e : Event Id) : Decidable (s.AnswersNewer e) := by
  cases e <;> unfold State.AnswersNewer <;> infer_instance

/-- The pending entry is claimed first, and the new one read after it. -/
theorem checkpoint_grows_and_covers_sample :
    AllSteps (step Config.sample) (fun s _ t => s.CheckpointGrows t) (.init Group.sample)
        [.stream none, .elapsed 1, .executed, .answered, .taken true, .exhausted, .executed,
          .answered, .executed, .answered, .taken true]
      ∧ AllStates (step Config.sample) State.CheckpointCovers (.init Group.sample)
        [.stream none, .elapsed 1, .executed, .answered, .taken true, .exhausted, .executed,
          .answered, .executed, .answered, .taken true] :=
  checkpoint_grows_and_covers Config.sample Group.sample _ (by decide)

/-- **The checkpoint can go back**, to an entry that is claimed after a new one has been
read, and to an entry that is read as new after a later one has been claimed, the group
having been set back by a resume. -/
theorem not_checkpoint_grows_claimed_or_resumed :
    ¬ AllSteps (step Config.sample) (fun s _ t => s.CheckpointGrows t) (.init Group.sample)
        [.stream none, .executed, .answered, .executed, .answered, .taken true, .exhausted,
          .elapsed 1, .executed, .answered, .taken true]
      ∧ ¬ AllSteps (step Config.sample) (fun s _ t => s.CheckpointGrows t) (.init Group.setBack)
        [.stream (some (toLex (0, 0))), .executed, .answered, .taken true, .taken true,
          .exhausted, .executed, .answered, .executed, .answered, .taken true] := by
  decide

end StreamSource

import AgoraPlugins.Redis.StreamCheckpoint

/-!
# Reclaimed batches between two reads

Before each read the source may reclaim, and a batch that it reclaims is taken up before it tries
again. With `max_consecutive_reclaim_batches` it counts the batches that come one after another,
and reads after so many of them.

The count goes back to zero in five places. After each of them the read follows at once: there is
no way back to the top of the loop but through it. So between two reads the count is never less than
the number of batches delivered, and the next reclaim is only issued while it is below the bound.

The bound is at least one, whatever is given. With none at all there is a reclaimed batch between
two reads all the same.
-/

open Machine

namespace StreamSource

variable {Id : Type} [LinearOrder Id]

/-- The source with a `max_consecutive_reclaim_batches` that is given, as `__init__` takes it. -/
def Config.withMaxConsecutiveReclaimBatches (cfg : Config) (m : ℤ) : Config :=
  { cfg with
    maxConsecutiveReclaimBatches := some (max 1 m).toNat
    maxConsecutiveReclaimBatches_pos := by
      intro n hn
      cases hn
      omega }

/-- An `XREADGROUP` is under way that the server has not executed. -/
def Pc.sent : Pc Id → Bool
  | .reading none => true
  | _ => false

/-- The reply to an `XAUTOCLAIM` has entries. -/
def Pc.reclaimed : Pc Id → Bool
  | .reclaiming (some (_ :: _, _)) => true
  | _ => false

/-- **The step is an attempt to read.** -/
def Attempts (s t : State Id) : Prop := t.pc.sent = true ∧ s.pc.sent = false

instance (s t : State Id) : Decidable (Attempts s t) :=
  inferInstanceAs (Decidable (t.pc.sent = true ∧ s.pc.sent = false))

/-- **The step delivers a batch** that was reclaimed. -/
def deliversReclaimed (s : State Id) : Event Id → Bool
  | .answered => s.pc.reclaimed
  | _ => false

/-- **How many reclaimed batches a run delivers.** -/
def reclaimedBatches (cfg : Config) : State Id → List (Event Id) → ℕ
  | _, [] => 0
  | s, e :: es => (deliversReclaimed s e).toNat + ((step cfg s e).map (fun t =>
      reclaimedBatches cfg t es)).getD 0

/-! ## What a step does with the count -/

/-- The count is within the bound, and below it while a reclaim is under way. -/
structure State.Within (n : ℕ) (s : State Id) : Prop where
  le : s.consecutiveReclaimBatchCount ≤ n
  lt : ∀ reply, s.pc = .reclaiming reply → s.consecutiveReclaimBatchCount < n

/-- **What becomes of the count.** It stays, or it goes up by the batch delivered; where it goes
back, the source reads or ends. -/
inductive State.Counts (n : ℕ) (s t : State Id) (e : Event Id) : Prop where
  | stays (count : t.consecutiveReclaimBatchCount = s.consecutiveReclaimBatchCount)
    (within : t.Within n) (quiet : deliversReclaimed s e = false)
  | counted (count : t.consecutiveReclaimBatchCount = s.consecutiveReclaimBatchCount + 1)
    (within : t.Within n)
  | reads (within : t.Within n) (attempts : Attempts s t)
  | ends (within : t.Within n) (ended : t.pc = .ended) (quiet : deliversReclaimed s e = false)

namespace State

variable {cfg : Config} {n : ℕ} {s t : State Id} {e : Event Id}

/-- A step that is no reclaim and leaves the count. -/
theorem Counts.of_pc (h : s.Within n)
    (hcount : t.consecutiveReclaimBatchCount = s.consecutiveReclaimBatchCount)
    (hpc : ∀ reply, t.pc ≠ .reclaiming reply) (he : deliversReclaimed s e = false) :
    s.Counts n t e :=
  .stays hcount ⟨hcount ▸ h.le, fun reply hreply => absurd hreply (hpc reply)⟩ he

/-- A step that leaves the source where it is. -/
theorem Counts.of_frame (h : s.Within n)
    (hcount : t.consecutiveReclaimBatchCount = s.consecutiveReclaimBatchCount) (hpc : t.pc = s.pc)
    (he : deliversReclaimed s e = false) : s.Counts n t e :=
  .stays hcount ⟨hcount ▸ h.le, fun reply hreply => hcount ▸ h.lt reply (hpc ▸ hreply)⟩ he

/-- **The read** of the loop. -/
theorem Counts.read {u : State Id} (hu : u.consecutiveReclaimBatchCount ≤ n)
    (hs : s.pc.sent = false) (he : deliversReclaimed s e = false) : s.Counts n u.read e := by
  unfold State.read
  split
  · exact .reads ⟨hu, by rintro _ ⟨⟩⟩ ⟨rfl, hs⟩
  · exact .ends ⟨hu, by rintro _ ⟨⟩⟩ rfl he

/-- **The top of the loop**: the reclaim is issued below the bound only. -/
theorem Counts.loop (hcfg : cfg.maxConsecutiveReclaimBatches = some n) {u : State Id}
    (h : s.Within n) (hu : u.consecutiveReclaimBatchCount = s.consecutiveReclaimBatchCount)
    (hs : s.pc.sent = false) (he : deliversReclaimed s e = false) : s.Counts n (u.loop cfg) e := by
  have hread : s.Counts n ({ u with consecutiveReclaimBatchCount := 0 } : State Id).read e :=
    Counts.read (Nat.zero_le n) hs he
  unfold State.loop
  rw [hcfg]
  cases cfg.reclaimIdleMs with
  | none => exact hread
  | some idle =>
    dsimp only [Option.all_some]
    split
    · rename_i hlt
      split
      · exact .stays hu ⟨hu ▸ h.le, fun _ _ => of_decide_eq_true hlt⟩ he
      · exact hread
    · exact hread

end State

open State

variable {cfg : Config} {n : ℕ} {s t : State Id}

/-- **One step.** -/
theorem counts_of_step (hcfg : cfg.maxConsecutiveReclaimBatches = some n) (h : s.Within n)
    {e : Event Id} (hs : step cfg s e = some t) : s.Counts n t e := by
  cases e with
  | stream resume =>
    simp only [step, State.stream] at hs
    split at hs
    · rename_i hpc
      have hsent : s.pc.sent = false := by rw [hpc]; rfl
      cases resume with
      | none =>
        cases hs
        exact Counts.loop hcfg h rfl hsent rfl
      | some id =>
        dsimp only at hs
        split at hs
        · cases hs
          exact .ends ⟨h.le, by rintro _ ⟨⟩⟩ rfl rfl
        · cases hs
          exact Counts.loop hcfg h rfl hsent rfl
    · cases hs
  -- a command that is executed counts no batch before it is answered
  | executed =>
    simp only [step, State.execute] at hs
    split at hs
    · cases hs
      exact Counts.of_pc h rfl (by rintro _ ⟨⟩) rfl
    · rename_i hpc
      cases hs
      exact .stays rfl ⟨h.le, fun _ _ => h.lt none hpc⟩ rfl
    · cases hs
  | executedAdrift i =>
    simp only [step, Option.map_eq_some_iff] at hs
    obtain ⟨call, _, rfl⟩ := hs
    cases call <;> exact Counts.of_frame h rfl rfl rfl
  | answered =>
    simp only [step, State.answer] at hs
    split at hs
    · rename_i hpc
      cases hs
      exact Counts.loop hcfg h rfl (by rw [hpc]; rfl) (by rw [deliversReclaimed, hpc]; rfl)
    · rename_i hpc
      cases hs
      exact Counts.of_pc h rfl (by rintro _ ⟨⟩) (by rw [deliversReclaimed, hpc]; rfl)
    · rename_i hpc
      cases hs
      exact Counts.read (Nat.zero_le n) (by rw [hpc]; rfl) (by rw [deliversReclaimed, hpc]; rfl)
    · rename_i hpc
      cases hs
      exact .counted rfl ⟨h.lt _ hpc, by rintro _ ⟨⟩⟩
    · cases hs
  | raised retryable =>
    obtain ⟨adrift, pc, client, rfl, _, _, _, hpc, _⟩ := fail_eq hs
    exact Counts.of_pc h rfl hpc rfl
  | recovered =>
    simp only [step, State.recover] at hs
    split at hs
    · rename_i hpc
      cases hs
      exact Counts.read (Nat.zero_le n) (by rw [hpc]; rfl) rfl
    · rename_i hpc
      cases hs
      exact Counts.loop hcfg h rfl (by rw [hpc]; rfl) rfl
    · cases hs
  | notRecovered =>
    simp only [step, State.giveUp] at hs
    split at hs
    · cases hs
      exact Counts.of_pc h rfl (by rintro _ ⟨⟩) rfl
    · cases hs
  | taken readable =>
    simp only [step, State.take] at hs
    split at hs
    · cases hs
      split_ifs <;> exact Counts.of_pc h rfl (by rintro _ ⟨⟩) rfl
    · cases hs
  | exhausted =>
    simp only [step, State.exhaust] at hs
    split at hs
    · rename_i hpc
      cases hs
      exact Counts.loop hcfg h rfl (by rw [hpc]; rfl) rfl
    · cases hs
  | stopped =>
    simp only [step, State.stop] at hs
    split at hs
    · cases hs
      exact Counts.of_pc h rfl (by rintro _ ⟨⟩) rfl
    · cases hs
  | added id =>
    simp only [step, Option.map_eq_some_iff] at hs
    obtain ⟨group, _, rfl⟩ := hs
    exact Counts.of_frame h rfl rfl rfl
  | clientGone | clientBuilt | acknowledged | readElsewhere | claimedElsewhere | elapsed =>
    cases hs
    exact Counts.of_frame h rfl rfl rfl

theorem within_of_step (hcfg : cfg.maxConsecutiveReclaimBatches = some n) (h : s.Within n)
    {e : Event Id} (hs : step cfg s e = some t) : t.Within n := by
  cases counts_of_step hcfg h hs with
  | stays _ within => exact within
  | counted _ within => exact within
  | reads within => exact within
  | ends within => exact within

/-- A stream that has ended does not go on. -/
theorem ended_of_step (h : s.pc = .ended) {e : Event Id} (hs : step cfg s e = some t) :
    t.pc = .ended := by
  cases e with
  | executedAdrift i =>
    simp only [step, Option.map_eq_some_iff] at hs
    obtain ⟨call, _, rfl⟩ := hs
    cases call <;> exact h
  | added id =>
    simp only [step, Option.map_eq_some_iff] at hs
    obtain ⟨group, _, rfl⟩ := hs
    exact h
  | clientGone | clientBuilt | acknowledged | readElsewhere | claimedElsewhere | elapsed =>
    cases hs
    exact h
  | stream | executed | answered | raised | recovered | notRecovered | taken | exhausted
  | stopped =>
    simp [step, State.stream, State.execute, State.answer, State.fail, State.recover,
      State.giveUp, State.take, State.exhaust, State.stop, h] at hs

theorem reclaimedBatches_cons {e : Event Id} (hs : step cfg s e = some t) (es : List (Event Id)) :
    reclaimedBatches cfg s (e :: es)
      = (deliversReclaimed s e).toNat + reclaimedBatches cfg t es := by
  rw [reclaimedBatches, hs, Option.map_some, Option.getD_some]

theorem reclaimedBatches_of_ended (h : s.pc = .ended) (es : List (Event Id)) :
    reclaimedBatches cfg s es = 0 := by
  induction es generalizing s with
  | nil => rfl
  | cons e es ih =>
    have hquiet : deliversReclaimed s e = false := by
      cases e <;> first | rfl | (rw [deliversReclaimed, h]; rfl)
    cases hs : step cfg s e with
    | none => rw [reclaimedBatches, hs, hquiet]; rfl
    | some t =>
      rw [reclaimedBatches_cons hs, hquiet, ih (ended_of_step h hs)]
      rfl

omit [LinearOrder Id] in
theorem Pc.exists_of_reclaimed {pc : Pc Id} (h : pc.reclaimed = true) :
    ∃ id rest cursor, pc = .reclaiming (some (id :: rest, cursor)) := by
  unfold reclaimed at h
  split at h
  · exact ⟨_, _, _, rfl⟩
  · cases h

/-- A step that cannot happen delivers nothing. -/
theorem deliversReclaimed_of_step_eq_none {e : Event Id} (hs : step cfg s e = none) :
    deliversReclaimed s e = false := by
  cases e with
  | answered =>
    by_contra h
    obtain ⟨id, rest, cursor, hpc⟩ := Pc.exists_of_reclaimed (Bool.eq_true_of_not_eq_false h)
    rw [step, hpc, State.answer] at hs
    cases hs
  | _ => rfl

/-- **Without a read** the count leaves no room for more than the bound. By induction on the
run. -/
theorem reclaimedBatches_add_le (hcfg : cfg.maxConsecutiveReclaimBatches = some n)
    (es : List (Event Id)) (h : s.Within n)
    (hno : AllSteps (step cfg) (fun s _ t => ¬ Attempts s t) s es) :
    reclaimedBatches cfg s es + s.consecutiveReclaimBatchCount ≤ n := by
  induction es generalizing s with
  | nil => exact (Nat.zero_add _).trans_le h.le
  | cons e es ih =>
    cases hs : step cfg s e with
    | none =>
      rw [reclaimedBatches, hs, deliversReclaimed_of_step_eq_none hs]
      exact (Nat.zero_add _).trans_le h.le
    | some t =>
      rw [reclaimedBatches_cons hs]
      have hle := ih (within_of_step hcfg h hs) (hno t hs).2
      have hone : (deliversReclaimed s e).toNat ≤ 1 := Bool.toNat_le _
      cases counts_of_step hcfg h hs with
      | stays count _ quiet =>
        rw [quiet, Bool.toNat_false]
        omega
      | counted count => omega
      | reads _ attempts => exact absurd attempts (hno t hs).1
      | ends _ ended quiet =>
        rw [quiet, reclaimedBatches_of_ended ended]
        exact (Nat.zero_add _).trans_le h.le

/-- **At most so many reclaimed batches between two reads**: in what goes on without one there are
no more, whatever has gone before. -/
theorem reclaimedBatches_le_between_reads (cfg : Config) (m : ℤ) (group : Group Id)
    (before between : List (Event Id)) {s : State Id}
    (hs : run (step (cfg.withMaxConsecutiveReclaimBatches m)) (init group) before = some s)
    (hno : AllSteps (step (cfg.withMaxConsecutiveReclaimBatches m)) (fun s _ t => ¬ Attempts s t)
      s between) :
    (reclaimedBatches (cfg.withMaxConsecutiveReclaimBatches m) s between : ℤ) ≤ max 1 m := by
  have hinit : State.Within (max 1 m).toNat (init group) :=
    ⟨Nat.zero_le _, by rintro _ ⟨⟩⟩
  have hwithin : s.Within (max 1 m).toNat :=
    (allStates_of_invariant (I := State.Within (max 1 m).toNat)
      (fun s e t h hs => within_of_step rfl h hs) hinit before).last hs
  have hle := reclaimedBatches_add_le rfl between hwithin hno
  omega

/-- Two batches, with a read in between. -/
theorem reclaimedBatches_le_between_reads_sample :
    ∃ s, run (step (Config.sample.withMaxConsecutiveReclaimBatches 2)) (init Group.setBack)
        [.stream none] = some s
      ∧ (reclaimedBatches (Config.sample.withMaxConsecutiveReclaimBatches 2) s
        [.executed, .answered, .taken true, .taken true, .exhausted, .elapsed 1, .executed,
          .answered, .taken true] : ℤ) ≤ max 1 2 :=
  ⟨_, rfl, reclaimedBatches_le_between_reads Config.sample 2 Group.setBack [.stream none] _ rfl
    (by decide)⟩

/-- **With a bound of zero there is a batch between two reads.** -/
theorem reclaimed_batch_between_reads_of_zero :
    ∃ s t u v : State MessageId,
      run (step (Config.sample.withMaxConsecutiveReclaimBatches 0)) (init Group.setBack)
          [.stream none, .executed, .answered, .taken true, .taken true] = some s
        ∧ step (Config.sample.withMaxConsecutiveReclaimBatches 0) s .exhausted = some t
        ∧ Attempts s t
        ∧ run (step (Config.sample.withMaxConsecutiveReclaimBatches 0)) t
          [.executed, .answered, .elapsed 1, .executed, .answered, .taken true, .taken true]
            = some u
        ∧ AllSteps (step (Config.sample.withMaxConsecutiveReclaimBatches 0))
          (fun s _ t => ¬ Attempts s t) t
          [.executed, .answered, .elapsed 1, .executed, .answered, .taken true, .taken true]
        ∧ step (Config.sample.withMaxConsecutiveReclaimBatches 0) u .exhausted = some v
        ∧ Attempts u v
        ∧ ¬ (reclaimedBatches (Config.sample.withMaxConsecutiveReclaimBatches 0) t
          [.executed, .answered, .elapsed 1, .executed, .answered, .taken true, .taken true] : ℤ)
            ≤ 0 :=
  ⟨_, _, _, _, rfl, rfl, by decide, rfl, by decide, rfl, by decide, by decide⟩

end StreamSource

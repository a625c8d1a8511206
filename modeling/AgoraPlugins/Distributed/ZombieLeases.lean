import AgoraPlugins.Distributed.Coordinator

/-!
# No zombie leases after a cycle

A renewal cycle goes through the leases the coordinator has, and each of them is renewed
in Redis or marked lost there, or all of them are marked lost at the deadline. So when
the cycle has returned, the coordinator has no lease that Redis may have given to another
since: each was stored or renewed less than its time to live ago.

But a renewal of the primary store whose call raises is neither: the lease stays, with a
time to live that runs out, and cycle after cycle returns as if nothing were wrong. The
law holds if no renewal of a cycle raises and Redis is connected while it goes on, so
that no lease is left to itself; and if time suffices: replies come within a bound after
Redis has done what they say, and cycles return that much before a time to live is over
since they began. A lease of the local fallback is not in Redis at all.
-/

open Machine

namespace Coordinator

variable {cfg : Config} {s t : State} {ttl delay : ℕ}

/-! ## The law -/

/-- Redis has stored or renewed the lease less than `age` before this time. -/
def State.Recent (s : State) (age time acquisition : ℕ) : Prop :=
  ∃ x ∈ s.stores, x.1 = acquisition ∧ time < x.2 + age

/-- The lease that `current_lease` reports is in Redis still. -/
def State.Reports (s : State) (ttl : ℕ) (pipelineId : String) : Prop :=
  ∀ held ∈ s.leaseTokens.lookup pipelineId, s.Recent ttl s.now held.acquisition

/-- The lease of the acquisition has been marked lost, through the callback. -/
def State.MarkedLost (s : State) (acquisition : ℕ) : Prop :=
  ∃ n ∈ s.notified, n.2 = some acquisition

/-- A cycle has returned with the step, the loop sleeps again. -/
def Completes (e : Event) (t : State) : Prop :=
  match e with
  | .woken i _ | .renewed i _ | .resumed i | .deadline i _ => t.tasks[i]? = some .sleeping
  | _ => False

/-- **No zombie leases**: when a cycle has returned, every lease that is reported is in
Redis still, and one whose time to live has run out has been marked lost, unless it was
released, found not valid or replaced. -/
def NoZombies (ttl : ℕ) (_ : State) (e : Event) (t : State) : Prop :=
  Completes e t → (∀ p, t.Reports ttl p)
    ∧ ∀ a ∈ t.acquired, ¬ t.Recent ttl t.now a.2 → t.MarkedLost a.2 ∨ a.2 ∈ t.dropped

/-- When Redis has stored or renewed what the task waits to hear of. -/
def Task.stored : Task → Option ℕ
  | .acquiring _ _ _ stored | .renewing _ stored _ => stored
  | _ => none

/-- The time the cycle has begun that the task goes on with, while it renews. -/
def Next.started : Next → Option ℕ
  | .returns => none
  | .renews _ started => some started

/-- When the round of renewals began that a task is in. -/
def Task.renewsSince : Task → Option ℕ
  | .renewing _ _ next | .givingBack _ next | .notifying next => next.started
  | _ => none

/-- The same, and while it marks leases lost. -/
def Task.started : Task → Option ℕ
  | .marking _ started => some started
  | u => u.renewsSince

/-- **When a step is in time**, and leaves no lease to itself. -/
def Timely (cfg : Config) (ttl delay : ℕ) (s : State) : Event → Prop
  | .tryAcquire _ _ _ => s.redis = true ∨ cfg.fallbackToLocal = false
  | .acquired i (some _) => ∀ u ∈ s.tasks[i]?, ∀ time ∈ u.stored, s.now < time + delay
  | .woken _ _ => s.canRenew cfg = true
  | .renewed i reply => ∀ u ∈ s.tasks[i]?,
      (reply = .renewed → ∀ time ∈ u.stored, s.now < time + delay)
        ∧ ∀ started ∈ u.started, reply ≠ .error ∧ s.canRenew cfg = true
          ∧ s.now + delay ≤ started + ttl
  | .resumed i => ∀ u ∈ s.tasks[i]?, (u.renewsSince ≠ none → s.canRenew cfg = true)
      ∧ ∀ started ∈ u.started, s.now + delay ≤ started + ttl
  | _ => True

/-! ## The invariant -/

/-- The acquisition a task at this index waits to hear of. -/
def Task.acquisition (i : ℕ) : Task → ℕ
  | .renewing r _ _ => r.held.acquisition
  | _ => i

/-- The pipelines that a cycle is still to see to. -/
def Next.pending : Next → List String
  | .returns => []
  | .renews ps _ => ps

/-- The pipelines that this round still comes to. -/
def Task.pending : Task → List String
  | .renewing r _ next | .givingBack r next => r.pipelineId :: next.pending
  | .notifying next => next.pending
  | .marking rs _ => rs.map Reading.pipelineId
  | _ => []

/-- All leases but those of these pipelines are of the time of the cycle. -/
def State.Covered (delay : ℕ) (s : State) (started : ℕ) (pipelineIds : List String) : Prop :=
  started ≤ s.now ∧ ∀ q held, s.leaseTokens.lookup q = some held →
    q ∈ pipelineIds ∨ s.Recent delay started held.acquisition

/-- **What is known of a task**: Redis has stored what it says, and its cycle has seen to all
leases but those it is still to see to. -/
structure Task.Tracked (delay i : ℕ) (s : State) (u : Task) : Prop where
  stored : ∀ time ∈ u.stored, (u.acquisition i, time) ∈ s.stores
  covers : ∀ started ∈ u.started, s.Covered delay started u.pending

/-- **Every acquisition is accounted for**: its lease is there, or has been marked lost or
dropped. -/
def State.Accounted (s : State) : Prop :=
  ∀ a ∈ s.acquired, (∃ p held, s.leaseTokens.lookup p = some held ∧ held.acquisition = a.2)
    ∨ s.MarkedLost a.2 ∨ a.2 ∈ s.dropped

/-- **The invariant of a run**: what is held was stored not long ago, or its loss is being told. -/
structure State.Tracked (delay : ℕ) (s : State) : Prop where
  tasks : ∀ (i : ℕ) (u : Task), s.tasks[i]? = some u → u.Tracked delay i s
  accounted : s.Accounted

/-- **What a step does to the leases**: those that come are recent, and none goes
unaccounted for. -/
structure Tracks (delay : ℕ) (s t : State) : Prop where
  leases : ∀ p held, t.leaseTokens.lookup p = some held →
    s.leaseTokens.lookup p = some held ∨ t.Recent delay s.now held.acquisition
  stores : ∀ x ∈ s.stores, x ∈ t.stores
  now : s.now ≤ t.now
  accounted : s.Accounted → t.Accounted
  tasks : t.tasks = s.tasks

/-- What was stored in time was stored in more time. -/
theorem State.Recent.mono {age time time' a : ℕ} (h : s.Recent age time a)
    (hstores : ∀ x ∈ s.stores, x ∈ t.stores) (htime : time' ≤ time) : t.Recent age time' a := by
  obtain ⟨x, hx, ha, hlt⟩ := h
  exact ⟨x, hstores x hx, ha, by omega⟩

theorem State.Covered.tracks {started : ℕ} {ps : List String} (h : s.Covered delay started ps)
    (ht : Tracks delay s t) : t.Covered delay started ps := by
  refine ⟨h.1.trans ht.now, fun q held hq => ?_⟩
  rcases ht.leases q held hq with hq | hrecent
  · exact (h.2 q held hq).imp_right (fun hrecent => hrecent.mono ht.stores le_rfl)
  · exact .inr (hrecent.mono (fun _ hx => hx) h.1)

theorem Task.Tracked.tracks {i : ℕ} {u : Task} (h : u.Tracked delay i s)
    (ht : Tracks delay s t) : u.Tracked delay i t :=
  ⟨fun time htime => ht.stores _ (h.stored time htime),
    fun started hstarted => (h.covers started hstarted).tracks ht⟩

/-- A task with nothing to hear of and no cycle to go on with. -/
theorem Task.tracked_of_none {i : ℕ} {u : Task} (hstored : u.stored = none)
    (hstarted : u.started = none) : u.Tracked delay i s := by
  constructor
  · rw [hstored]
    intro time htime
    cases htime
  · rw [hstarted]
    intro started hstarted
    cases hstarted

/-! ## What the parts of a step do -/

/-- Where nothing changes about leases and tasks. -/
theorem tracks_of_eq (hleases : t.leaseTokens = s.leaseTokens)
    (hstores : ∀ x ∈ s.stores, x ∈ t.stores) (hnow : s.now ≤ t.now)
    (hacquired : t.acquired = s.acquired) (hnotified : t.notified = s.notified)
    (hdropped : t.dropped = s.dropped) (htasks : t.tasks = s.tasks) : Tracks delay s t := by
  refine ⟨fun p held hp => .inl (hleases ▸ hp), hstores, hnow, fun h => ?_, htasks⟩
  unfold State.Accounted State.MarkedLost at *
  rw [hleases, hacquired, hnotified, hdropped]
  exact h

/-- A lease that is dropped needs no tracking. -/
theorem State.Drops.tracks (h : s.Drops t) : Tracks delay s t := by
  refine ⟨fun p held hp => .inl (h.leases p held hp), fun x hx => ?_, h.now.ge, fun hs a ha => ?_,
    h.tasks⟩
  · rw [h.stores]
    exact hx
  · rw [h.acquired] at ha
    rcases hs a ha with ⟨p, held, hp, heq⟩ | hlost | hdropped
    · rcases h.gone p held hp with hp | hdropped
      · exact .inl ⟨p, held, hp, heq⟩
      · exact .inr (.inr (heq ▸ hdropped))
    · refine .inr (.inl ?_)
      unfold MarkedLost
      rw [h.notified]
      exact hlost
    · exact .inr (.inr (h.dropped _ hdropped))

/-- A lease that is written is recent, and the one it replaces is accounted for. -/
theorem tracks_keep {p : String} {held : Held} (h : s.Recent delay s.now held.acquisition) :
    Tracks delay s (s.keep p held) := by
  refine ⟨fun q held' hq => ?_, fun _ hx => hx, le_rfl, fun hs a ha => ?_, rfl⟩
  · by_cases hqp : q = p
    · subst hqp
      have heq : some held = some held' := (AList.lookup_insert _).symm.trans hq
      cases heq
      exact .inr h
    · exact .inl ((AList.lookup_insert_ne hqp).symm.trans hq)
  · rcases hs a ha with ⟨q, held', hq, heq⟩ | hlost | hdropped
    · by_cases hqp : q = p
      · subst hqp
        by_cases hsame : held'.acquisition = held.acquisition
        · exact .inl ⟨q, held, AList.lookup_insert _, hsame.symm.trans heq⟩
        · refine .inr (.inr (List.mem_append_right _ (List.mem_filter.2 ⟨?_, ?_⟩)))
          · rw [hq, ← heq]
            exact List.mem_singleton_self _
          · rw [← heq]
            exact decide_eq_true hsame
      · exact .inl ⟨q, held', (AList.lookup_insert_ne hqp).trans hq, heq⟩
    · exact .inr (.inl hlost)
    · exact .inr (.inr (List.mem_append_left _ hdropped))

/-- One that is acquired was stored just now. -/
theorem tracks_acquire {p : String} {held : Held} (h : s.Recent delay s.now held.acquisition) :
    Tracks delay s (s.acquire p held) := by
  have hkeep : Tracks delay s (s.keep p held) := tracks_keep h
  refine ⟨hkeep.leases, hkeep.stores, hkeep.now, fun hs a ha => ?_, rfl⟩
  rcases List.mem_cons.1 ha with rfl | ha
  · exact .inl ⟨p, held, AList.lookup_insert _, rfl⟩
  · exact hkeep.accounted hs a ha

/-- One that is marked as lost is told. -/
theorem tracks_markLost (s : State) (p : String) : Tracks delay s (s.markLost p) := by
  refine ⟨fun q held hq => .inl (State.lookup_of_lookup_erase hq).2, fun _ hx => hx, le_rfl,
    fun hs a ha => ?_, rfl⟩
  rcases hs a ha with ⟨q, held, hq, heq⟩ | ⟨n, hn, heq⟩ | hdropped
  · by_cases hqp : q = p
    · subst hqp
      refine .inr (.inl ⟨_, List.mem_append_right _ (List.mem_singleton_self _), ?_⟩)
      rw [hq, ← heq]
      rfl
    · exact .inl ⟨q, held, (AList.lookup_erase_ne hqp).trans hq, heq⟩
  · exact .inr (.inl ⟨n, List.mem_append_left _ hn, heq⟩)
  · exact .inr (.inr hdropped)

namespace State.Tracked

theorem tracks (h : s.Tracked delay) (ht : Tracks delay s t) : t.Tracked delay := by
  refine ⟨fun i u hu => ?_, ht.accounted h.accounted⟩
  rw [ht.tasks] at hu
  exact (h.tasks i u hu).tracks ht

theorem setTask (h : s.Tracked delay) {i : ℕ} {u : Task} (hu : u.Tracked delay i s) :
    (s.setTask i u).Tracked delay := by
  refine ⟨fun j v hv => ?_, h.accounted⟩
  rcases Redlock.eq_or_of_getElem?_set hv with ⟨rfl, rfl⟩ | ⟨_, hv⟩
  · exact ⟨hu.stored, hu.covers⟩
  · have hold := h.tasks j v hv
    exact ⟨hold.stored, hold.covers⟩

theorem start (h : s.Tracked delay) {u : Task} (hu : u.Tracked delay s.tasks.length s) :
    (s.start u).Tracked delay := by
  refine ⟨fun j v hv => ?_, h.accounted⟩
  rcases Redlock.eq_or_of_getElem?_concat hv with hv | ⟨rfl, rfl⟩
  · have hold := h.tasks j v hv
    exact ⟨hold.stored, hold.covers⟩
  · exact ⟨hu.stored, hu.covers⟩

/-- A step that changes the leases and then one task, for one that waits for nothing. -/
theorem setTask_of_none (h : s.Tracked delay) (ht : Tracks delay s t) (i : ℕ) (u : Task)
    (hstored : u.stored = none) (hstarted : u.started = none) :
    (t.setTask i u).Tracked delay :=
  (h.tracks ht).setTask (Task.tracked_of_none hstored hstarted)

/-- In particular with one that has stored nothing yet. -/
theorem start_of_none (h : s.Tracked delay) (u : Task)
    (hstored : u.stored = none) (hstarted : u.started = none) :
    (s.start u).Tracked delay :=
  h.start (Task.tracked_of_none hstored hstarted)

end State.Tracked

/-! ## A cycle goes on -/

namespace State.Covered

variable {started : ℕ} {p : String} {ps : List String}

/-- A pipeline is seen to if it has no lease any more. -/
theorem markLost (h : s.Covered delay started (p :: ps)) :
    (s.markLost p).Covered delay started ps := by
  refine ⟨h.1, fun q held hq => ?_⟩
  obtain ⟨hne, hq⟩ := lookup_of_lookup_erase hq
  exact (h.2 q held hq).imp_left (fun hmem => (List.mem_cons.1 hmem).resolve_left hne)

/-- Or if its lease has just been renewed. -/
theorem keep {held : Held} (h : s.Covered delay started (p :: ps))
    (hrecent : s.Recent delay s.now held.acquisition) :
    (s.keep p held).Covered delay started ps := by
  refine ⟨h.1, fun q held' hq => ?_⟩
  by_cases hqp : q = p
  · subst hqp
    have heq : some held = some held' := (AList.lookup_insert _).symm.trans hq
    cases heq
    exact .inr (hrecent.mono (fun _ hx => hx) h.1)
  · have hq : s.leaseTokens.lookup q = some held' := (AList.lookup_insert_ne hqp).symm.trans hq
    exact (h.2 q held' hq).imp_left (fun hmem => (List.mem_cons.1 hmem).resolve_left hqp)

/-- **A cycle that has seen to all leases in time** leaves none that is not in Redis. -/
theorem reports (h : s.Covered delay started ps)
    (hnone : ∀ q ∈ ps, s.leaseTokens.lookup q = none) (htime : s.now + delay ≤ started + ttl) :
    ∀ q, s.Reports ttl q := by
  intro q held hq
  rcases h.2 q held hq with hmem | ⟨x, hx, ha, hlt⟩
  · have hq : s.leaseTokens.lookup q = some held := hq
    rw [hnone q hmem] at hq
    cases hq
  · exact ⟨x, hx, ha, by omega⟩

end State.Covered

/-- Once a cycle has returned, no lease is a zombie. -/
def EndsWell (ttl i : ℕ) (t : State) : Prop :=
  t.tasks[i]? = some .sleeping → ∀ p, t.Reports ttl p

/-- A round that goes on has not ended badly. -/
theorem endsWell_of_ne {i : ℕ} {u : Task} (hi : i < s.tasks.length) (hu : u ≠ .sleeping) :
    EndsWell ttl i (s.setTask i u) := by
  intro hsleeping
  have hset : (s.tasks.set i u)[i]? = some .sleeping := hsleeping
  rw [List.getElem?_set_self hi] at hset
  exact absurd (Option.some.inj hset) hu

namespace State.Tracked

/-- **The cycle goes on** with what is left to see to, or has returned. -/
theorem renewLeases (h : s.Tracked delay) {i started : ℕ} {ps : List String}
    (hcan : s.canRenew cfg = true) (hi : i < s.tasks.length)
    (hcovered : s.Covered delay started ps)
    (hend : (∀ q ∈ ps, s.leaseTokens.lookup q = none) → ∀ p, s.Reports ttl p) :
    (s.renewLeases cfg i started ps).Tracked delay
      ∧ EndsWell ttl i (s.renewLeases cfg i started ps) := by
  obtain ⟨task, heq, hcases⟩ := s.renewLeases_eq cfg i started ps
  rw [heq]
  rcases hcases with ⟨rfl, hnone⟩ | ⟨p, held, ps', _, _, rfl, hall⟩
  · exact ⟨h.setTask (Task.tracked_of_none rfl rfl), fun _ => hend (hnone hcan)⟩
  · refine ⟨h.setTask ⟨nofun, fun started' hstarted => ?_⟩, endsWell_of_ne hi nofun⟩
    cases hstarted
    refine ⟨hcovered.1, fun q held' hq => ?_⟩
    rcases hcovered.2 q held' hq with hmem | hrecent
    · rcases hall q hmem with rfl | hmem | hnone
      · exact .inl List.mem_cons_self
      · exact .inl (List.mem_cons_of_mem _ hmem)
      · rw [hnone] at hq
        cases hq
    · exact .inr hrecent

/-- **The round goes on** to the next lease, or ends with all of them recent or told. -/
theorem goOn (h : s.Tracked delay) {i : ℕ} {next : Next} (hi : i < s.tasks.length)
    (hnext : ∀ started ∈ next.started, s.canRenew cfg = true
      ∧ s.Covered delay started next.pending ∧ s.now + delay ≤ started + ttl) :
    (s.goOn cfg i next).Tracked delay ∧ EndsWell ttl i (s.goOn cfg i next) := by
  cases next with
  | returns =>
    exact ⟨h.setTask (Task.tracked_of_none rfl rfl), endsWell_of_ne hi nofun⟩
  | renews ps started =>
    obtain ⟨hcan, hcovered, htime⟩ := hnext started rfl
    exact h.renewLeases hcan hi hcovered (fun hnone => hcovered.reports hnone htime)

/-- **Readings that were lost are marked**, one after the other. -/
theorem markLeases (h : s.Tracked delay) {i started : ℕ} {rs : List Reading}
    (hi : i < s.tasks.length) (hcovered : s.Covered delay started (rs.map Reading.pipelineId))
    (hend : rs = [] → ∀ p, s.Reports ttl p) :
    (s.markLeases i started rs).Tracked delay ∧ EndsWell ttl i (s.markLeases i started rs) := by
  cases rs with
  | nil => exact ⟨h.setTask (Task.tracked_of_none rfl rfl), fun _ => hend rfl⟩
  | cons r rs =>
    refine ⟨(h.tracks (tracks_markLost s r.pipelineId)).setTask ⟨nofun, fun _ hstarted => ?_⟩,
      endsWell_of_ne hi nofun⟩
    cases hstarted
    exact hcovered.markLost

theorem drain (h : s.Tracked delay) (i : ℕ) (ps : List String) :
    (State.drain i ps s).Tracked delay := by
  obtain ⟨t, task, heq, hdrops, htask⟩ := drain_eq i ps s
  rw [heq]
  rcases htask with rfl | ⟨ps', rfl⟩
  · exact h.setTask_of_none hdrops.tracks i _ rfl rfl
  · exact h.setTask_of_none hdrops.tracks i _ rfl rfl

theorem release (h : s.Tracked delay) (p : String) : (s.release p).Tracked delay := by
  have hbegin : Tracks delay s (s.beginRelease p) :=
    tracks_of_eq rfl (fun _ hx => hx) le_rfl rfl rfl rfl rfl
  have hend : ∀ s' : State, Tracks delay s' (s'.endRelease p (s.acquires p)) := fun s' =>
    tracks_of_eq rfl (fun _ hx => hx) le_rfl rfl rfl rfl rfl
  have hdropped := (h.tracks hbegin).tracks (drops_drop (s.beginRelease p) p).tracks
  unfold State.release
  dsimp only
  split
  next => exact hdropped.tracks (hend _)
  next =>
    split
    next => exact (h.tracks hbegin).tracks (hend _)
    next =>
      split
      next => exact (h.tracks hbegin).tracks (hend _)
      next => exact hdropped.start_of_none (.releasing p (s.acquires p)) rfl rfl

/-! ### What a task awaits is over -/

theorem answerValidate (h : s.Tracked delay) {i : ℕ} {u : Task} {valid : Option Bool}
    (hs : s.answerValidate cfg i u valid = some t) : t.Tracked delay := by
  unfold State.answerValidate at hs
  split at hs
  next p =>
    cases hs
    exact h.setTask_of_none (drops_drop s p).tracks i .ended rfl rfl
  next =>
    cases hs
    exact h.setTask (Task.tracked_of_none rfl rfl)
  next =>
    split at hs
    next =>
      cases hs
      exact h.setTask (Task.tracked_of_none rfl rfl)
    next => cases hs
  next => cases hs

theorem raise (h : s.Tracked delay) {i : ℕ} {u : Task} (hs : s.raise i u = some t) :
    t.Tracked delay := by
  unfold State.raise at hs
  split at hs
  case h_5 | h_6 =>
    cases hs
    split
    next => exact h.setTask (Task.tracked_of_none rfl rfl)
    next => exact h.setTask (Task.tracked_of_none rfl rfl)
  case h_7 ps =>
    cases hs
    exact h.drain i ps
  case h_1 | h_2 | h_3 | h_4 =>
    cases hs
    exact h.setTask (Task.tracked_of_none rfl rfl)
  all_goals cases hs

section Steps

variable {i : ℕ} {u : Task} (hu : s.tasks[i]? = some u)
include hu

theorem execute (h : s.Tracked delay) (hs : s.execute i u = some t) : t.Tracked delay := by
  have hcovers := (h.tasks i u hu).covers
  unfold State.execute at hs
  split at hs
  next p n a =>
    cases hs
    have hstore : Tracks delay s { s with stores := (i, s.now) :: s.stores } :=
      tracks_of_eq rfl (fun _ hx => List.mem_cons_of_mem _ hx) le_rfl rfl rfl rfl rfl
    have hset : Task.Tracked delay i { s with stores := (i, s.now) :: s.stores }
        (.acquiring p n a (some s.now)) := by
      refine ⟨fun time htime => ?_, nofun⟩
      cases htime
      exact List.mem_cons_self
    exact (h.tracks hstore).setTask hset
  next r next =>
    cases hs
    have hstore : Tracks delay s
        { s with stores := (r.held.acquisition, s.now) :: s.stores } :=
      tracks_of_eq rfl (fun _ hx => List.mem_cons_of_mem _ hx) le_rfl rfl rfl rfl rfl
    have hset : Task.Tracked delay i
        { s with stores := (r.held.acquisition, s.now) :: s.stores }
        (.renewing r (some s.now) next) := by
      refine ⟨fun time htime => ?_, fun started hstarted =>
        (hcovers started hstarted).tracks hstore⟩
      cases htime
      exact List.mem_cons_self
    exact (h.tracks hstore).setTask hset
  next => cases hs

/-- **The reply of an acquisition**, which comes in time. -/
theorem answerAcquire (h : s.Tracked delay) {token : Option ℕ}
    (htime : ∀ n ∈ token, ∀ time ∈ u.stored, s.now < time + delay)
    (hs : s.answerAcquire cfg i u token = some t) : t.Tracked delay := by
  have hstored := (h.tasks i u hu).stored
  unfold State.answerAcquire at hs
  split at hs
  next p n a time token =>
    cases hs
    have hrecent : s.Recent delay s.now i :=
      ⟨(i, time), hstored time rfl, rfl, htime token rfl time rfl⟩
    exact h.setTask_of_none (tracks_acquire hrecent) i .ended rfl rfl
  next =>
    cases hs
    exact h.setTask (Task.tracked_of_none rfl rfl)
  next => cases hs

/-- **The reply of a renewal**, which comes in time. -/
theorem answerRenew (h : s.Tracked delay) {reply : RenewReply}
    (htime : reply = .renewed → ∀ time ∈ u.stored, s.now < time + delay)
    (hcycle : ∀ started ∈ u.started, reply ≠ .error ∧ s.canRenew cfg = true
      ∧ s.now + delay ≤ started + ttl)
    (hs : s.answerRenew cfg i u reply = some t) : t.Tracked delay ∧ EndsWell ttl i t := by
  have hi : i < s.tasks.length := (List.getElem?_eq_some_iff.1 hu).1
  obtain ⟨hstored, hcovers⟩ := h.tasks i u hu
  unfold State.answerRenew at hs
  split at hs
  next r time next =>
    cases hs
    have hrecent : s.Recent delay s.now r.held.acquisition :=
      ⟨(r.held.acquisition, time), hstored time rfl, rfl, htime rfl time rfl⟩
    refine (h.tracks (tracks_keep hrecent)).goOn hi (fun started hstarted => ?_)
    obtain ⟨_, hcan, hlt⟩ := hcycle started hstarted
    exact ⟨hcan, (hcovers started hstarted).keep hrecent, hlt⟩
  next r _ next _ =>
    cases hs
    have hset : Task.Tracked delay i (s.markLost r.pipelineId) (.notifying next) :=
      ⟨nofun, fun started hstarted => (hcovers started hstarted).markLost⟩
    exact ⟨(h.tracks (tracks_markLost s r.pipelineId)).setTask hset, endsWell_of_ne hi nofun⟩
  next r _ next _ =>
    cases hs
    have hset : Task.Tracked delay i s (.givingBack r next) :=
      ⟨nofun, fun started hstarted => hcovers started hstarted⟩
    exact ⟨h.setTask hset, endsWell_of_ne hi nofun⟩
  next r _ next _ =>
    cases hs
    refine h.goOn hi (fun started hstarted => ?_)
    exact absurd rfl (hcycle started hstarted).1
  next => cases hs

theorem resume (h : s.Tracked delay)
    (hcycle : (u.renewsSince ≠ none → s.canRenew cfg = true)
      ∧ ∀ started ∈ u.started, s.now + delay ≤ started + ttl)
    (hs : s.resume cfg i u = some t) : t.Tracked delay ∧ EndsWell ttl i t := by
  have hi : i < s.tasks.length := (List.getElem?_eq_some_iff.1 hu).1
  have hcovers := (h.tasks i u hu).covers
  obtain ⟨hcan, htime⟩ := hcycle
  unfold State.resume at hs
  split at hs
  next p c =>
    cases hs
    have htracks : Tracks delay s (s.endRelease p c) :=
      tracks_of_eq rfl (fun _ hx => hx) le_rfl rfl rfl rfl rfl
    exact ⟨h.setTask_of_none htracks i .ended rfl rfl, endsWell_of_ne hi nofun⟩
  next r next =>
    cases hs
    have hset : Task.Tracked delay i (s.markLost r.pipelineId) (.notifying next) :=
      ⟨nofun, fun started hstarted => (hcovers started hstarted).markLost⟩
    exact ⟨(h.tracks (tracks_markLost s r.pipelineId)).setTask hset, endsWell_of_ne hi nofun⟩
  next next =>
    cases hs
    refine h.goOn hi (fun started hstarted => ?_)
    have hrenews : next.started ≠ none := by
      rw [hstarted]
      exact nofun
    exact ⟨hcan hrenews, hcovers started hstarted, htime started hstarted⟩
  next rs started =>
    cases hs
    have hcovered : s.Covered delay started (rs.map Reading.pipelineId) := hcovers started rfl
    refine h.markLeases hi hcovered (fun hnil => ?_)
    subst hnil
    exact hcovered.reports nofun (htime started rfl)
  next ps =>
    cases hs
    obtain ⟨t, task, heq, hdrops, htask⟩ := drain_eq i ps s
    rw [heq]
    have hit : i < t.tasks.length := by
      rw [hdrops.tasks]
      exact hi
    rcases htask with rfl | ⟨ps', rfl⟩
    · exact ⟨h.setTask_of_none hdrops.tracks i _ rfl rfl, endsWell_of_ne hit nofun⟩
    · exact ⟨h.setTask_of_none hdrops.tracks i _ rfl rfl, endsWell_of_ne hit nofun⟩
  next =>
    cases hs
    have hsession : Tracks delay s.clear { s.clear with redis := false } :=
      tracks_of_eq rfl (fun _ hx => hx) le_rfl rfl rfl rfl rfl
    exact ⟨(h.tracks (drops_clear s).tracks).setTask_of_none hsession i .ended rfl rfl,
      endsWell_of_ne hi nofun⟩
  next => cases hs

theorem wake (h : s.Tracked delay) {ps : List String} (hcan : s.canRenew cfg = true)
    (hs : s.wake cfg i ps u = some t) : t.Tracked delay ∧ EndsWell ttl i t := by
  have hi : i < s.tasks.length := (List.getElem?_eq_some_iff.1 hu).1
  unfold State.wake at hs
  split at hs
  next =>
    obtain ⟨hperm, hs⟩ := Option.ite_none_right_eq_some.1 hs
    cases hs
    have hmem : ∀ q held, s.leaseTokens.lookup q = some held → q ∈ ps := fun q held hq =>
      hperm.mem_iff.2 (AList.mem_keys.1 (AList.lookup_isSome.1 (Option.isSome_of_eq_some hq)))
    refine h.renewLeases hcan hi ⟨le_rfl, fun q held hq => .inl (hmem q held hq)⟩ ?_
    intro hnone q held hq
    have hq : s.leaseTokens.lookup q = some held := hq
    rw [hnone q (hmem q held hq)] at hq
    cases hq
  next => cases hs

theorem timeOut (h : s.Tracked delay) {ps : List String}
    (hs : s.timeOut cfg i ps u = some t) : t.Tracked delay ∧ EndsWell ttl i t := by
  have hi : i < s.tasks.length := (List.getElem?_eq_some_iff.1 hu).1
  have hcovers := (h.tasks i u hu).covers
  have hmarks : ∀ started, started ≤ s.now → ps.Perm s.leaseTokens.keys →
      (s.markLeases i started (s.readings ps)).Tracked delay
        ∧ EndsWell ttl i (s.markLeases i started (s.readings ps)) := by
    intro started hle hperm
    have hmem : ∀ q held, s.leaseTokens.lookup q = some held →
        s.read q held ∈ s.readings ps := by
      intro q held hq
      refine List.mem_filterMap.2 ⟨q, ?_, ?_⟩
      · exact hperm.mem_iff.2 (AList.mem_keys.1
          (AList.lookup_isSome.1 (Option.isSome_of_eq_some hq)))
      · rw [hq]
        rfl
    refine h.markLeases hi ⟨hle, fun q held hq => .inl ?_⟩ (fun hnil q held hq => ?_)
    · exact List.mem_map.2 ⟨_, hmem q held hq, rfl⟩
    · have hr := hmem q held hq
      rw [hnil] at hr
      cases hr
  unfold State.timeOut at hs
  split at hs
  case h_4 => cases hs
  all_goals
    obtain ⟨⟨_, hperm⟩, hs⟩ := Option.ite_none_right_eq_some.1 hs
    cases hs
    exact hmarks _ (hcovers _ rfl).1 hperm

end Steps

/-- **One step keeps the invariant**, and a round that completes leaves every lease recent or told.
-/
theorem step {e : Event} (h : s.Tracked delay) (he : Timely cfg ttl delay s e)
    (hs : Coordinator.step cfg s e = some t) :
    t.Tracked delay ∧ (Completes e t → ∀ p, t.Reports ttl p) := by
  -- only the end of a round reports anything
  have hquiet : t.Tracked delay → (Completes e t → False) →
      t.Tracked delay ∧ (Completes e t → ∀ p, t.Reports ttl p) :=
    fun ht hnot => ⟨ht, fun hcompletes => (hnot hcompletes).elim⟩
  cases e with
  | connected | disconnected =>
    cases hs
    exact hquiet (h.tracks (tracks_of_eq rfl (fun _ hx => hx) le_rfl rfl rfl rfl rfl)) nofun
  | registered =>
    obtain ⟨_, hs⟩ := Option.ite_none_right_eq_some.1 hs
    cases hs
    exact hquiet (h.tracks (tracks_of_eq rfl (fun _ hx => hx) le_rfl rfl rfl rfl rfl)) nofun
  | loopStarted =>
    obtain ⟨_, hs⟩ := Option.ite_none_right_eq_some.1 hs
    cases hs
    exact hquiet (h.start_of_none .sleeping rfl rfl) nofun
  | tick =>
    cases hs
    exact hquiet (h.tracks (tracks_of_eq rfl (fun _ hx => hx) (Nat.le_succ _) rfl rfl rfl rfl))
      nofun
  | tryAcquire p n a =>
    cases hs
    refine hquiet ?_ nofun
    unfold State.tryAcquire
    split
    next hredis =>
      -- the step is timely, so Redis is there or nothing falls back to it
      have hlocal : s.acquireLocal cfg p n a = s := by
        unfold acquireLocal
        rcases he with htrue | hfallback
        · rw [hredis] at htrue
          cases htrue
        · rw [if_neg]
          rw [hfallback]
          exact nofun
      rw [hlocal]
      exact h.start_of_none .ended rfl rfl
    next =>
      split
      next => exact h.start_of_none .ended rfl rfl
      next => exact h.start_of_none (.acquiring p n a none) rfl rfl
  | release p =>
    cases hs
    exact hquiet (h.release p) nofun
  | validate p token =>
    cases hs
    refine hquiet ?_ nofun
    unfold State.validate
    split
    next => exact h.start_of_none .ended rfl rfl
    next =>
      split
      next => exact h.start_of_none .ended rfl rfl
      next => exact h.start_of_none (.validating p) rfl rfl
  | renew p =>
    cases hs
    refine hquiet ?_ nofun
    unfold State.renew
    split
    next held _ _ => exact h.start_of_none (.renewing (s.read p held) none .returns) rfl rfl
    next => exact h.start_of_none .ended rfl rfl
  | stop =>
    cases hs
    refine hquiet ?_ nofun
    unfold State.stop
    split
    next => exact (h.tracks (drops_clear s).tracks).start_of_none .ended rfl rfl
    next => exact h.start_of_none .stopping rfl rfl
  | executed i =>
    obtain ⟨u, hu, hs⟩ := Option.bind_eq_some_iff.1 hs
    exact hquiet (h.execute hu hs) nofun
  | acquired i token =>
    obtain ⟨u, hu, hs⟩ := Option.bind_eq_some_iff.1 hs
    refine hquiet (h.answerAcquire hu (fun n hn => ?_) hs) nofun
    cases hn
    exact he u hu
  | validated i valid =>
    obtain ⟨u, hu, hs⟩ := Option.bind_eq_some_iff.1 hs
    exact hquiet (h.answerValidate hs) nofun
  | renewed i reply =>
    obtain ⟨u, hu, hs⟩ := Option.bind_eq_some_iff.1 hs
    exact h.answerRenew hu (he u hu).1 (he u hu).2 hs
  | resumed i =>
    obtain ⟨u, hu, hs⟩ := Option.bind_eq_some_iff.1 hs
    exact h.resume hu (he u hu) hs
  | woken i ps =>
    obtain ⟨u, hu, hs⟩ := Option.bind_eq_some_iff.1 hs
    exact h.wake hu he hs
  | deadline i ps =>
    obtain ⟨u, hu, hs⟩ := Option.bind_eq_some_iff.1 hs
    exact h.timeOut hu hs
  | unwaited i ps =>
    obtain ⟨u, hu, hs⟩ := Option.bind_eq_some_iff.1 hs
    unfold unwait at hs
    split at hs
    next =>
      obtain ⟨_, hs⟩ := Option.ite_none_right_eq_some.1 hs
      cases hs
      exact hquiet (h.drain i ps) nofun
    next => cases hs
  | raised i =>
    obtain ⟨u, hu, hs⟩ := Option.bind_eq_some_iff.1 hs
    exact hquiet (h.raise hs) nofun
  | cancelled i =>
    obtain ⟨u, hu, hs⟩ := Option.bind_eq_some_iff.1 hs
    unfold cancel at hs
    split at hs
    next => cases hs
    next =>
      cases hs
      exact hquiet (h.setTask (Task.tracked_of_none rfl rfl)) nofun

end State.Tracked

theorem State.tracked_init (delay : ℕ) : State.init.Tracked delay :=
  ⟨nofun, nofun⟩

/-- **No zombie leases** when a cycle has returned, in every run in time. -/
theorem allSteps_noZombies (cfg : Config) (ttl delay : ℕ) (es : List Event)
    (h : AllSteps (step cfg) (fun s e _ => Timely cfg ttl delay s e) State.init es) :
    AllSteps (step cfg) (NoZombies ttl) State.init es := by
  have hstep : ∀ (s : State) (e : Event) (t : State), s.Tracked delay →
      Timely cfg ttl delay s e → step cfg s e = some t →
      t.Tracked delay ∧ NoZombies ttl s e t := by
    intro s e t hs he hst
    obtain ⟨ht, hreports⟩ := hs.step he hst
    refine ⟨ht, fun hcompletes => ⟨hreports hcompletes, fun a ha hnot => ?_⟩⟩
    refine (ht.accounted a ha).resolve_left ?_
    rintro ⟨p, held, hp, heq⟩
    exact hnot (heq ▸ hreports hcompletes p held hp)
  exact allSteps_of_step hstep (State.tracked_init delay) h

instance (cfg : Config) (ttl delay : ℕ) (s : State) (e : Event) :
    Decidable (Timely cfg ttl delay s e) := by
  unfold Timely
  split <;> infer_instance

instance (s : State) (ttl : ℕ) (p : String) : Decidable (s.Reports ttl p) :=
  inferInstanceAs (Decidable (∀ held ∈ s.leaseTokens.lookup p,
    ∃ x ∈ s.stores, x.1 = held.acquisition ∧ s.now < x.2 + ttl))

instance (e : Event) (t : State) : Decidable (Completes e t) := by
  unfold Completes
  split <;> infer_instance

/-- A lease is acquired and renewed in a cycle. -/
theorem allSteps_noZombies_renewed :
    AllSteps (step ⟨.primary, "w", false, 2⟩) (NoZombies 3) State.init
      [.connected, .registered, .loopStarted, .tryAcquire "p" 1 "t", .executed 1,
        .acquired 1 (some 1), .tick, .woken 0 ["p"], .executed 0, .renewed 0 .renewed] :=
  allSteps_noZombies _ 3 1 _ (by decide +kernel)

/-- **A lease can outlive its time in Redis.** Its renewals raise until it is over, and the
cycle returns with the lease in place. -/
theorem not_allSteps_noZombies :
    ¬ AllSteps (step ⟨.primary, "w", false, 2⟩) (NoZombies 3) State.init
      [.connected, .registered, .loopStarted, .tryAcquire "p" 1 "t", .executed 1,
        .acquired 1 (some 1), .tick, .woken 0 ["p"], .renewed 0 .error, .tick, .tick,
        .woken 0 ["p"], .renewed 0 .error] := by
  have hp : ∀ cfg es, AllSteps (step cfg) (NoZombies 3) State.init es →
      AllSteps (step cfg) (fun _ e t => Completes e t → t.Reports 3 "p") State.init es :=
    fun _ _ h => h.mono (fun _ _ _ hzombies hcompletes => (hzombies hcompletes).1 "p")
  refine mt (hp _ _) ?_
  decide +kernel

end Coordinator

import AgoraPlugins.Distributed.Coordinator

/-!
# The local leases under races

While a renewal awaits Redis the pipeline can be released and acquired anew, and when the
reply is in the renewal writes what it has read, or discards the entry, by the pipeline
alone. So a lease that has been released comes back, and one that has been acquired since
is overwritten by an older one or discarded for it.

It takes such a race. If, between the reading of a renewal and its reply, no acquisition
of the pipeline succeeds and, where the lease has been renewed, no release of it begins,
then a released pipeline has no local lease until it is acquired again, and no renewal
touches a lease other than the one it has read. A release has to find the scripts
registered besides, since without them it returns before it has discarded anything.
-/

open Machine

namespace Coordinator

variable {cfg : Config} {s t : State}

/-! ## The law -/

/-- **What is released is gone**: once a release has returned and no acquisition of the
pipeline has succeeded since it began, there is no local lease. -/
def State.Releases (s : State) : Prop :=
  ∀ b ∈ s.released, b.2 = s.acquires b.1 → s.leaseTokens.lookup b.1 = none

/-- The reading a step of a renewal, or of `mark_all_leases_lost`, acts on. -/
def State.acting (s : State) : Event → Option Reading
  | .renewed _ .error => none
  | .renewed i _ => match s.tasks[i]? with
    | some (.renewing r _ _) => some r
    | _ => none
  | .resumed i => match s.tasks[i]? with
    | some (.givingBack r _) => some r
    | some (.marking (r :: _) _) => some r
    | _ => none
  | _ => none

/-- **A lease is safe from the renewals of others**: a step that acts on an earlier lease
leaves it as it is. -/
def Spares (s : State) (e : Event) (t : State) : Prop :=
  ∀ r ∈ s.acting e, ∀ held, s.leaseTokens.lookup r.pipelineId = some held →
    held.acquisition ≠ r.held.acquisition → t.leaseTokens.lookup r.pipelineId = some held

/-- No acquisition of the pipeline has succeeded since it was read. -/
def Reading.Current (s : State) (r : Reading) : Prop := s.acquires r.pipelineId = r.acquires

/-- Nor has a release of it begun. -/
def Reading.Undisturbed (s : State) (r : Reading) : Prop :=
  r.Current s ∧ s.releases r.pipelineId = r.releases

/-- **When a step does not lose a race.** -/
def Uncontended (s : State) (e : Event) : Prop :=
  (∀ r ∈ s.acting e, r.Current s) ∧
    match e with
    | .renewed _ .renewed => ∀ r ∈ s.acting e, r.Undisturbed s
    | .release _ => s.redis = true → s.scripts = true
    | _ => True

/-! ## The invariant -/

/-- The last acquisition of a pipeline. -/
def latest (acquired : List (String × ℕ)) (pipelineId : String) : Option ℕ :=
  (acquired.find? (fun a => a.1 = pipelineId)).map Prod.snd

/-- The readings that a task is still to act on. -/
def Task.readings : Task → List Reading
  | .renewing r _ _ | .givingBack r _ => [r]
  | .marking rs _ => rs
  | _ => []

/-- **What is known of a reading**: it is of the last acquisition, if it is current; and if
no release has begun since, then all that have begun were before that acquisition. -/
structure Reading.Sound (s : State) (r : Reading) : Prop where
  acquires : r.acquires ≤ s.acquires r.pipelineId
  releases : r.releases ≤ s.releases r.pipelineId
  latest : r.Current s → latest s.acquired r.pipelineId = some r.held.acquisition
  begun : r.Undisturbed s → ∀ b ∈ s.begun, b.1 = r.pipelineId → b.2 ≠ s.acquires r.pipelineId

/-- **What a task knows is so**: the leases that it has read were held as it read them. -/
def Task.Sound (s : State) (u : Task) : Prop :=
  (∀ p c, u = .releasing p c → (p, c) ∈ s.begun) ∧ ∀ r ∈ u.readings, r.Sound s

/-- **The invariant of a run without races.** -/
structure State.Consistent (s : State) : Prop where
  /-- a release that has begun has discarded the lease -/
  begun : ∀ b ∈ s.begun, b.2 ≤ s.acquires b.1
    ∧ (b.2 = s.acquires b.1 → s.leaseTokens.lookup b.1 = none)
  released : ∀ b ∈ s.released, b ∈ s.begun
  /-- a local lease is of the last acquisition of its pipeline -/
  held : ∀ p held, s.leaseTokens.lookup p = some held →
    latest s.acquired p = some held.acquisition
  tasks : ∀ u ∈ s.tasks, u.Sound s

/-! ## What the parts of a step keep -/

/-- How often a pipeline was acquired depends on the acquisitions. -/
theorem acquires_congr (h : t.acquired = s.acquired) (p : String) :
    t.acquires p = s.acquires p := by
  unfold State.acquires
  rw [h]

theorem releases_congr (h : t.begun = s.begun) (p : String) : t.releases p = s.releases p := by
  unfold State.releases
  rw [h]

theorem Reading.Sound.congr {r : Reading} (h : r.Sound s) (hacquired : t.acquired = s.acquired)
    (hbegun : t.begun = s.begun) : r.Sound t := by
  have hacquires : s.acquires r.pipelineId = t.acquires r.pipelineId :=
    (acquires_congr hacquired _).symm
  have hreleases : s.releases r.pipelineId = t.releases r.pipelineId :=
    (releases_congr hbegun _).symm
  refine ⟨h.acquires.trans_eq hacquires, h.releases.trans_eq hreleases, fun hcurrent => ?_,
    fun hundisturbed => ?_⟩
  · rw [hacquired]
    exact h.latest (hacquires.trans hcurrent)
  · rw [hbegun, ← hacquires]
    exact h.begun ⟨hacquires.trans hundisturbed.1, hreleases.trans hundisturbed.2⟩

theorem Task.Sound.congr {u : Task} (h : u.Sound s) (hacquired : t.acquired = s.acquired)
    (hbegun : t.begun = s.begun) : u.Sound t :=
  ⟨fun p c huc => hbegun ▸ h.1 p c huc, fun r hr => (h.2 r hr).congr hacquired hbegun⟩

/-- What a task is to release. -/
def Task.release : Task → Option (String × ℕ)
  | .releasing p c => some (p, c)
  | _ => none

/-- A task that is no release is sound if its readings are. -/
theorem Task.sound_of_readings {u : Task} (h : ∀ r ∈ u.readings, r.Sound s)
    (hu : u.release = none) : u.Sound s := by
  refine ⟨fun p c huc => ?_, h⟩
  subst huc
  cases hu

/-- And so is one that has no readings. -/
theorem Task.sound_of_eq_nil {u : Task} (h : u.readings = []) (hu : u.release = none) :
    u.Sound s := by
  refine Task.sound_of_readings ?_ hu
  rw [h]
  exact List.forall_mem_nil _

namespace State.Consistent

/-- A reading of a lease that is there is sound. -/
theorem read (h : s.Consistent) {p : String} {held : Held}
    (hp : s.leaseTokens.lookup p = some held) : (s.read p held).Sound s := by
  refine ⟨le_rfl, le_rfl, fun _ => h.held p held hp, ?_⟩
  rintro - b hb rfl heq
  rw [(h.begun b hb).2 heq] at hp
  cases hp

/-- **The dictionary loses entries only**, and the tasks act on sound readings. -/
theorem shrinks (h : s.Consistent)
    (hleases : ∀ p held, t.leaseTokens.lookup p = some held → s.leaseTokens.lookup p = some held)
    (hacquired : t.acquired = s.acquired) (hbegun : t.begun = s.begun)
    (hreleased : ∀ b ∈ t.released, b ∈ s.begun) (htasks : ∀ u ∈ t.tasks, u.Sound s) :
    t.Consistent := by
  refine ⟨fun b hb => ?_, fun b hb => ?_, fun p held hp => ?_, fun u hu => ?_⟩
  · rw [hbegun] at hb
    rw [acquires_congr hacquired]
    refine ⟨(h.begun b hb).1, fun heq => ?_⟩
    refine Option.eq_none_iff_forall_ne_some.2 (fun held hheld => ?_)
    have hs : s.leaseTokens.lookup b.1 = some held := hleases _ _ hheld
    rw [(h.begun b hb).2 heq] at hs
    cases hs
  · rw [hbegun]
    exact hreleased b hb
  · rw [hacquired]
    exact h.held p held (hleases p held hp)
  · exact (htasks u hu).congr hacquired hbegun

/-- The session, the clock and what Redis does are not in it. -/
theorem session (h : s.Consistent) (redis scripts : Bool) (now : ℕ) (stores : List (ℕ × ℕ)) :
    ({ s with redis := redis, scripts := scripts, now := now, stores := stores } :
      State).Consistent :=
  h.shrinks (fun _ _ hp => hp) rfl rfl h.released h.tasks

theorem drops (h : s.Consistent) (hdrops : s.Drops t) : t.Consistent :=
  h.shrinks hdrops.leases hdrops.acquired hdrops.begun (fun b hb => h.released b (by
    rw [← hdrops.released]
    exact hb)) (fun u hu => h.tasks u (by
    rw [← hdrops.tasks]
    exact hu))

theorem setTask (h : s.Consistent) {i : ℕ} {u : Task} (hu : u.Sound s) :
    (s.setTask i u).Consistent := by
  refine h.shrinks (fun _ _ hp => hp) rfl rfl h.released (fun v hv => ?_)
  rcases List.mem_or_eq_of_mem_set hv with hv | rfl
  · exact h.tasks v hv
  · exact hu

theorem start (h : s.Consistent) {u : Task} (hu : u.Sound s) : (s.start u).Consistent := by
  refine h.shrinks (fun _ _ hp => hp) rfl rfl h.released (fun v hv => ?_)
  rcases List.mem_append.1 hv with hv | hv
  · exact h.tasks v hv
  · rw [List.mem_singleton.1 hv]
    exact hu

theorem markLost (h : s.Consistent) (p : String) : (s.markLost p).Consistent :=
  h.shrinks (fun _ _ hq => (State.lookup_of_lookup_erase hq).2) rfl rfl h.released h.tasks

/-- **An acquisition supersedes** the releases and the readings before it. -/
theorem acquire (h : s.Consistent) (p : String) (held : Held) :
    (s.acquire p held).Consistent := by
  have hsame : (s.acquire p held).acquires p = s.acquires p + 1 := by
    unfold acquires State.acquire
    simp
  have hother : ∀ q, q ≠ p → (s.acquire p held).acquires q = s.acquires q := by
    intro q hq
    unfold acquires State.acquire
    simp [Ne.symm hq]
  have hlatest : ∀ q, q ≠ p →
      Coordinator.latest (s.acquire p held).acquired q = Coordinator.latest s.acquired q := by
    intro q hq
    unfold Coordinator.latest State.acquire
    simp [Ne.symm hq]
  refine ⟨fun b hb => ?_, h.released, fun q held' hq => ?_, fun u hu => ?_⟩
  · obtain ⟨hle, hnone⟩ := h.begun b hb
    by_cases hbp : b.1 = p
    · rw [hbp, hsame]
      rw [hbp] at hle
      exact ⟨by omega, fun heq => absurd heq (by omega)⟩
    · rw [hother b.1 hbp]
      exact ⟨hle, fun heq => (AList.lookup_insert_ne hbp).trans (hnone heq)⟩
  · by_cases hqp : q = p
    · subst hqp
      have heq : some held = some held' := (AList.lookup_insert _).symm.trans hq
      cases heq
      unfold Coordinator.latest State.acquire
      simp
    · rw [hlatest q hqp]
      exact h.held q held' ((AList.lookup_insert_ne hqp).symm.trans hq)
  · obtain ⟨hreleasing, hreadings⟩ := h.tasks u hu
    refine ⟨hreleasing, fun r hr => ?_⟩
    obtain ⟨hle, hreleases, hcurrent, hbefore⟩ := hreadings r hr
    by_cases hrp : r.pipelineId = p
    · -- the reading is not current any more
      have hlt : r.acquires < (s.acquire p held).acquires r.pipelineId := by
        rw [hrp, hsame, ← hrp]
        omega
      exact ⟨hlt.le, hreleases, fun hc => absurd hc hlt.ne', fun hu => absurd hu.1 hlt.ne'⟩
    · have heq := hother r.pipelineId hrp
      refine ⟨hle.trans_eq heq.symm, hreleases, fun hc => ?_, fun hu => ?_⟩
      · rw [hlatest r.pipelineId hrp]
        exact hcurrent (heq.symm.trans hc)
      · rw [heq]
        exact hbefore ⟨heq.symm.trans hu.1, hu.2⟩

/-- **A renewal writes what it has read**, if nothing has come between. -/
theorem keep (h : s.Consistent) {r : Reading} (hr : r.Sound s) (hundisturbed : r.Undisturbed s) :
    (s.keep r.pipelineId r.held).Consistent := by
  refine ⟨fun b hb => ⟨(h.begun b hb).1, fun heq => ?_⟩, h.released, fun p held hp => ?_,
    fun u hu => (h.tasks u hu).congr rfl rfl⟩
  · have hne : b.1 ≠ r.pipelineId := by
      intro hbr
      refine hr.begun hundisturbed b hb hbr ?_
      rw [← hbr]
      exact heq
    exact (AList.lookup_insert_ne hne).trans ((h.begun b hb).2 heq)
  · by_cases hpr : p = r.pipelineId
    · subst hpr
      have heq : some r.held = some held := (AList.lookup_insert _).symm.trans hp
      cases heq
      exact hr.latest hundisturbed.1
    · exact h.held p held ((AList.lookup_insert_ne hpr).symm.trans hp)

/-- **A release begins**, and discards the lease. -/
theorem beginRelease (h : s.Consistent) (p : String)
    (hgone : t.leaseTokens.lookup p = none)
    (hleases : ∀ q held, t.leaseTokens.lookup q = some held →
      s.leaseTokens.lookup q = some held)
    (hacquired : t.acquired = s.acquired)
    (hbegun : t.begun = (p, s.acquires p) :: s.begun)
    (hreleased : t.released = s.released) (htasks : t.tasks = s.tasks) : t.Consistent := by
  have hsame : t.releases p = s.releases p + 1 := by
    unfold releases
    rw [hbegun]
    simp
  have hother : ∀ q, q ≠ p → t.releases q = s.releases q := by
    intro q hq
    unfold releases
    rw [hbegun]
    simp [Ne.symm hq]
  refine ⟨fun b hb => ?_, fun b hb => ?_, fun q held hq => ?_, fun u hu => ?_⟩
  · rw [acquires_congr hacquired]
    rw [hbegun] at hb
    rcases List.mem_cons.1 hb with rfl | hb
    · exact ⟨le_rfl, fun _ => hgone⟩
    · refine ⟨(h.begun b hb).1, fun heq => ?_⟩
      refine Option.eq_none_iff_forall_ne_some.2 (fun held hheld => ?_)
      have hs := hleases b.1 held hheld
      rw [(h.begun b hb).2 heq] at hs
      cases hs
  · rw [hbegun]
    exact List.mem_cons_of_mem _ (h.released b (hreleased ▸ hb))
  · rw [hacquired]
    exact h.held q held (hleases q held hq)
  · obtain ⟨hreleasing, hreadings⟩ := h.tasks u (htasks ▸ hu)
    refine ⟨fun q c huc => ?_, fun r hr => ?_⟩
    · rw [hbegun]
      exact List.mem_cons_of_mem _ (hreleasing q c huc)
    obtain ⟨hacq, hrel, hlatest, hbefore⟩ := hreadings r hr
    have hacquires := acquires_congr hacquired r.pipelineId
    refine ⟨hacq.trans_eq hacquires.symm, ?_, fun hcurrent => ?_, fun hundisturbed => ?_⟩
    · by_cases hrp : r.pipelineId = p
      · rw [hrp, hsame, ← hrp]
        omega
      · rw [hother _ hrp]
        exact hrel
    · rw [hacquired]
      exact hlatest (hacquires.symm.trans hcurrent)
    · obtain ⟨hcurrent, hreleases⟩ := hundisturbed
      by_cases hrp : r.pipelineId = p
      · -- the reading is disturbed now
        rw [hrp, hsame, ← hrp] at hreleases
        omega
      · rw [hbegun, hacquires]
        intro b hb hbr
        rcases List.mem_cons.1 hb with rfl | hb
        · exact absurd hbr.symm hrp
        · exact hbefore ⟨hacquires.symm.trans hcurrent, (hother _ hrp).symm.trans hreleases⟩ b hb
            hbr

/-- A release ends, of a lease that is not held any longer. -/
theorem endRelease (h : s.Consistent) {p : String} {c : ℕ} (hb : (p, c) ∈ s.begun) :
    (s.endRelease p c).Consistent := by
  refine h.shrinks (fun _ _ hp => hp) rfl rfl (fun b hb' => ?_) h.tasks
  rcases List.mem_cons.1 hb' with rfl | hb'
  · exact hb
  · exact h.released b hb'

/-- The leases are renewed one after the other. -/
theorem renewLeases (h : s.Consistent) (i started : ℕ) (ps : List String) :
    (s.renewLeases cfg i started ps).Consistent := by
  obtain ⟨task, heq, hcases⟩ := s.renewLeases_eq cfg i started ps
  rw [heq]
  rcases hcases with ⟨rfl, _⟩ | ⟨p, held, ps', _, hp, rfl, _⟩
  · exact h.setTask (Task.sound_of_eq_nil rfl rfl)
  · refine h.setTask (Task.sound_of_readings (fun r hr => ?_) rfl)
    rw [List.mem_singleton.1 hr]
    exact h.read hp

theorem markLeases (h : s.Consistent) (i started : ℕ) {rs : List Reading}
    (hrs : ∀ r ∈ rs, r.Sound s) : (s.markLeases i started rs).Consistent := by
  cases rs with
  | nil => exact h.setTask (Task.sound_of_eq_nil rfl rfl)
  | cons r rs =>
    refine (h.markLost r.pipelineId).setTask (Task.sound_of_readings (fun r' hr' => ?_) rfl)
    exact (hrs r' (List.mem_cons_of_mem r hr')).congr rfl rfl

theorem goOn (h : s.Consistent) (i : ℕ) (next : Next) : (s.goOn cfg i next).Consistent := by
  cases next with
  | returns => exact h.setTask (Task.sound_of_eq_nil rfl rfl)
  | renews ps started => exact h.renewLeases i started ps

theorem drain (h : s.Consistent) (i : ℕ) (ps : List String) :
    (State.drain i ps s).Consistent := by
  obtain ⟨t, task, heq, hdrops, htask⟩ := drain_eq i ps s
  rw [heq]
  refine (h.drops hdrops).setTask ?_
  rcases htask with rfl | ⟨ps', rfl⟩
  · exact Task.sound_of_eq_nil rfl rfl
  · exact Task.sound_of_eq_nil rfl rfl

theorem release (h : s.Consistent) {p : String} (hscripts : s.redis = true → s.scripts = true) :
    (s.release p).Consistent := by
  have hdropped : ((s.beginRelease p).drop p).Consistent :=
    h.beginRelease p (AList.lookup_erase p _)
      (fun q held hq => (lookup_of_lookup_erase hq).2) rfl rfl rfl rfl
  unfold State.release
  dsimp only
  split
  next => exact hdropped.endRelease List.mem_cons_self
  next hredis =>
    split
    next hnot =>
      rw [hscripts (Bool.eq_true_of_not_eq_false hredis)] at hnot
      cases hnot
    next =>
      split
      next hnone =>
        have hbegun : (s.beginRelease p).Consistent :=
          h.beginRelease p hnone (fun _ _ hq => hq) rfl rfl rfl rfl
        exact hbegun.endRelease List.mem_cons_self
      next =>
        refine hdropped.start ⟨fun q c hqc => ?_, nofun⟩
        cases hqc
        exact List.mem_cons_self

theorem tryAcquire (h : s.Consistent) (p : String) (n : ℕ) (a : String) :
    (s.tryAcquire cfg p n a).Consistent := by
  unfold State.tryAcquire
  split
  next =>
    refine Consistent.start ?_ (Task.sound_of_eq_nil rfl rfl)
    unfold acquireLocal
    split
    next =>
      exact (h.acquire p _).shrinks (fun _ _ hq => hq) rfl rfl
        (h.acquire p _).released (h.acquire p _).tasks
    next => exact h
  next =>
    split
    next => exact h.start (Task.sound_of_eq_nil rfl rfl)
    next => exact h.start (Task.sound_of_eq_nil rfl rfl)

theorem renew (h : s.Consistent) (p : String) : (s.renew cfg p).Consistent := by
  unfold State.renew
  split
  next held _ hp =>
    refine h.start (Task.sound_of_readings (fun r hr => ?_) rfl)
    rw [List.mem_singleton.1 hr]
    exact h.read hp
  next => exact h.start (Task.sound_of_eq_nil rfl rfl)

/-- **What is read now** is so. -/
theorem readings (h : s.Consistent) (ps : List String) : ∀ r ∈ s.readings ps, r.Sound s := by
  intro r hr
  obtain ⟨p, _, hr⟩ := List.mem_filterMap.1 hr
  obtain ⟨held, hp, rfl⟩ := Option.map_eq_some_iff.1 hr
  exact h.read hp

/-! ### What a task awaits is over -/

theorem execute (h : s.Consistent) {i : ℕ} {u : Task} (hu : s.tasks[i]? = some u)
    (hs : s.execute i u = some t) : t.Consistent := by
  have hreadings : ∀ r ∈ u.readings, r.Sound s := (h.tasks u (List.mem_of_getElem? hu)).2
  unfold State.execute at hs
  split at hs
  next p n a =>
    cases hs
    have hset : (s.setTask i (.acquiring p n a (some s.now))).Consistent :=
      h.setTask (Task.sound_of_eq_nil rfl rfl)
    exact hset.session s.redis s.scripts s.now _
  next r next =>
    cases hs
    have hset : (s.setTask i (.renewing r (some s.now) next)).Consistent :=
      h.setTask (Task.sound_of_readings hreadings rfl)
    exact hset.session s.redis s.scripts s.now _
  next => cases hs

theorem answerAcquire (h : s.Consistent) {i : ℕ} {u : Task} {token : Option ℕ}
    (hs : s.answerAcquire cfg i u token = some t) : t.Consistent := by
  unfold State.answerAcquire at hs
  split at hs
  next p n a _ token =>
    cases hs
    exact (h.acquire p _).setTask (Task.sound_of_eq_nil rfl rfl)
  next =>
    cases hs
    exact h.setTask (Task.sound_of_eq_nil rfl rfl)
  next => cases hs

theorem answerValidate (h : s.Consistent) {i : ℕ} {u : Task} {valid : Option Bool}
    (hs : s.answerValidate cfg i u valid = some t) : t.Consistent := by
  unfold State.answerValidate at hs
  split at hs
  next p =>
    cases hs
    exact (h.drops (drops_drop s p)).setTask (Task.sound_of_eq_nil rfl rfl)
  next =>
    cases hs
    exact h.setTask (Task.sound_of_eq_nil rfl rfl)
  next =>
    split at hs
    next =>
      cases hs
      exact h.setTask (Task.sound_of_eq_nil rfl rfl)
    next => cases hs
  next => cases hs

theorem raise (h : s.Consistent) {i : ℕ} {u : Task} (hs : s.raise i u = some t) :
    t.Consistent := by
  unfold State.raise at hs
  split at hs
  case h_5 | h_6 =>
    cases hs
    split
    next => exact h.setTask (Task.sound_of_eq_nil rfl rfl)
    next => exact h.setTask (Task.sound_of_eq_nil rfl rfl)
  case h_7 ps =>
    cases hs
    exact h.drain i ps
  case h_1 | h_2 | h_3 | h_4 =>
    cases hs
    exact h.setTask (Task.sound_of_eq_nil rfl rfl)
  all_goals cases hs

/-- **The reply of a renewal**: what it renews locally has not been disturbed. -/
theorem answerRenew (h : s.Consistent) {i : ℕ} {u : Task} {reply : RenewReply}
    (hu : s.tasks[i]? = some u)
    (hundisturbed : reply = .renewed → ∀ r ∈ s.acting (.renewed i reply), r.Undisturbed s)
    (hs : s.answerRenew cfg i u reply = some t) : t.Consistent := by
  have hreadings : ∀ r ∈ u.readings, r.Sound s := (h.tasks u (List.mem_of_getElem? hu)).2
  unfold State.answerRenew at hs
  split at hs
  next r _ next =>
    cases hs
    have hr : r.Sound s := hreadings r List.mem_cons_self
    have hacting : r ∈ s.acting (.renewed i .renewed) := by
      unfold acting
      dsimp only
      rw [hu]
      rfl
    exact (h.keep hr (hundisturbed rfl r hacting)).goOn i next
  next r _ next _ =>
    cases hs
    exact (h.markLost r.pipelineId).setTask (Task.sound_of_eq_nil rfl rfl)
  next r _ next _ =>
    cases hs
    exact h.setTask (Task.sound_of_readings hreadings rfl)
  next r _ next _ =>
    cases hs
    exact h.goOn i next
  next => cases hs

theorem resume (h : s.Consistent) {i : ℕ} {u : Task} (hu : s.tasks[i]? = some u)
    (hs : s.resume cfg i u = some t) : t.Consistent := by
  obtain ⟨hreleasing, hreadings⟩ := h.tasks u (List.mem_of_getElem? hu)
  unfold State.resume at hs
  split at hs
  next p c =>
    cases hs
    exact (h.endRelease (hreleasing p c rfl)).setTask (Task.sound_of_eq_nil rfl rfl)
  next r next =>
    cases hs
    exact (h.markLost r.pipelineId).setTask (Task.sound_of_eq_nil rfl rfl)
  next next =>
    cases hs
    exact h.goOn i next
  next rs started =>
    cases hs
    exact h.markLeases i started hreadings
  next ps =>
    cases hs
    exact h.drain i ps
  next =>
    cases hs
    exact ((h.drops (drops_clear s)).session false s.scripts s.now s.stores).setTask
      (Task.sound_of_eq_nil rfl rfl)
  next => cases hs

/-- **One step without a race keeps the invariant.** -/
theorem step {e : Event} (h : s.Consistent) (he : Uncontended s e)
    (hs : Coordinator.step cfg s e = some t) : t.Consistent := by
  cases e with
  | connected => exact Option.some.inj hs ▸ h.session true s.scripts s.now s.stores
  | registered =>
    obtain ⟨_, hs⟩ := Option.ite_none_right_eq_some.1 hs
    exact Option.some.inj hs ▸ h.session s.redis true s.now s.stores
  | disconnected => exact Option.some.inj hs ▸ h.session false s.scripts s.now s.stores
  | loopStarted =>
    obtain ⟨_, hs⟩ := Option.ite_none_right_eq_some.1 hs
    exact Option.some.inj hs ▸ h.start (Task.sound_of_eq_nil rfl rfl)
  | tick => exact Option.some.inj hs ▸ h.session s.redis s.scripts (s.now + 1) s.stores
  | tryAcquire p n a => exact Option.some.inj hs ▸ h.tryAcquire p n a
  | release p => exact Option.some.inj hs ▸ h.release he.2
  | validate p token =>
    cases hs
    unfold State.validate
    split
    next => exact h.start (Task.sound_of_eq_nil rfl rfl)
    next =>
      split
      next => exact h.start (Task.sound_of_eq_nil rfl rfl)
      next => exact h.start (Task.sound_of_eq_nil rfl rfl)
  | renew p => exact Option.some.inj hs ▸ h.renew p
  | stop =>
    cases hs
    unfold State.stop
    split
    next => exact (h.drops (drops_clear s)).start (Task.sound_of_eq_nil rfl rfl)
    next => exact h.start (Task.sound_of_eq_nil rfl rfl)
  | executed i =>
    obtain ⟨u, hu, hs⟩ := Option.bind_eq_some_iff.1 hs
    exact h.execute hu hs
  | acquired i token =>
    obtain ⟨u, hu, hs⟩ := Option.bind_eq_some_iff.1 hs
    exact h.answerAcquire hs
  | validated i valid =>
    obtain ⟨u, hu, hs⟩ := Option.bind_eq_some_iff.1 hs
    exact h.answerValidate hs
  | renewed i reply =>
    obtain ⟨u, hu, hs⟩ := Option.bind_eq_some_iff.1 hs
    refine h.answerRenew hu (fun hreply => ?_) hs
    subst hreply
    exact he.2
  | resumed i =>
    obtain ⟨u, hu, hs⟩ := Option.bind_eq_some_iff.1 hs
    exact h.resume hu hs
  | woken i ps =>
    obtain ⟨u, hu, hs⟩ := Option.bind_eq_some_iff.1 hs
    unfold wake at hs
    split at hs
    next =>
      obtain ⟨_, hs⟩ := Option.ite_none_right_eq_some.1 hs
      exact Option.some.inj hs ▸ h.renewLeases i s.now ps
    next => cases hs
  | deadline i ps =>
    obtain ⟨u, hu, hs⟩ := Option.bind_eq_some_iff.1 hs
    unfold timeOut at hs
    split at hs
    case h_4 => cases hs
    all_goals
      obtain ⟨_, hs⟩ := Option.ite_none_right_eq_some.1 hs
      exact Option.some.inj hs ▸ h.markLeases i _ (h.readings ps)
  | unwaited i ps =>
    obtain ⟨u, hu, hs⟩ := Option.bind_eq_some_iff.1 hs
    unfold unwait at hs
    split at hs
    next =>
      obtain ⟨_, hs⟩ := Option.ite_none_right_eq_some.1 hs
      exact Option.some.inj hs ▸ h.drain i ps
    next => cases hs
  | raised i =>
    obtain ⟨u, hu, hs⟩ := Option.bind_eq_some_iff.1 hs
    exact h.raise hs
  | cancelled i =>
    obtain ⟨u, hu, hs⟩ := Option.bind_eq_some_iff.1 hs
    unfold cancel at hs
    split at hs
    next => cases hs
    next => exact Option.some.inj hs ▸ h.setTask (Task.sound_of_eq_nil rfl rfl)

end State.Consistent

/-! ## The runs without races -/

/-- What a released pipeline has. -/
theorem State.Consistent.releases (h : s.Consistent) : s.Releases :=
  fun b hb => (h.begun b (h.released b hb)).2

/-- What an event acts on was read before. -/
theorem State.Consistent.sound_of_acting (h : s.Consistent) {e : Event} {r : Reading}
    (hr : r ∈ s.acting e) : r.Sound s := by
  unfold acting at hr
  split at hr
  next => cases hr
  next i _ _ =>
    split at hr
    next r' _ next hu =>
      cases hr
      exact (h.tasks _ (List.mem_of_getElem? hu)).2 r List.mem_cons_self
    next => cases hr
  next i =>
    split at hr
    next r' next hu =>
      cases hr
      exact (h.tasks _ (List.mem_of_getElem? hu)).2 r List.mem_cons_self
    next r' rs started hu =>
      cases hr
      exact (h.tasks _ (List.mem_of_getElem? hu)).2 r List.mem_cons_self
    next => cases hr
  next => cases hr

/-- Without a race no other lease is there. -/
theorem State.Consistent.spares (h : s.Consistent) {e : Event} (he : Uncontended s e) :
    Spares s e t := by
  intro r hr held hheld hne
  have hlatest := (h.sound_of_acting hr).latest (he.1 r hr)
  rw [h.held r.pipelineId held hheld] at hlatest
  exact absurd (Option.some.inj hlatest) hne

theorem State.consistent_init : State.init.Consistent :=
  ⟨nofun, nofun, nofun, nofun⟩

/-- **The local leases are consistent** in every run without races, with either store: what
has been released is gone, and no renewal touches the lease of a later acquisition. -/
theorem releases_and_spares (cfg : Config) (es : List Event)
    (h : AllSteps (step cfg) (fun s e _ => Uncontended s e) State.init es) :
    AllStates (step cfg) State.Releases State.init es
      ∧ AllSteps (step cfg) Spares State.init es := by
  constructor
  · exact (allStates_of_step (fun _ _ _ hs he ht => hs.step he ht)
      State.consistent_init h).mono (fun _ hs => hs.releases)
  · exact allSteps_of_step (fun _ _ _ hs he ht => ⟨hs.step he ht, hs.spares he⟩)
      State.consistent_init h

instance (s : State) (e : Event) : Decidable (Uncontended s e) := by
  unfold Uncontended Reading.Undisturbed Reading.Current
  refine @instDecidableAnd _ _ inferInstance ?_
  split <;> infer_instance

instance (s : State) (e : Event) (t : State) : Decidable (Spares s e t) :=
  inferInstanceAs (Decidable (∀ r ∈ s.acting e, ∀ held, held ∈ s.leaseTokens.lookup r.pipelineId →
    held.acquisition ≠ r.held.acquisition → t.leaseTokens.lookup r.pipelineId = some held))

instance : DecidablePred State.Releases := fun s =>
  inferInstanceAs (Decidable (∀ b ∈ s.released, b.2 = s.acquires b.1 →
    s.leaseTokens.lookup b.1 = none))

/-- A lease is renewed by the loop, released and acquired anew. -/
theorem releases_and_spares_renewed :
    AllStates (step ⟨.primary, "w", false, 150⟩) State.Releases State.init
        [.connected, .registered, .loopStarted, .tryAcquire "p" 1 "t", .executed 1,
          .acquired 1 (some 1), .woken 0 ["p"], .executed 0, .renewed 0 .renewed,
          .release "p", .resumed 2, .tryAcquire "p" 2 "u", .executed 3, .acquired 3 (some 2)]
      ∧ AllSteps (step ⟨.primary, "w", false, 150⟩) Spares State.init
        [.connected, .registered, .loopStarted, .tryAcquire "p" 1 "t", .executed 1,
          .acquired 1 (some 1), .woken 0 ["p"], .executed 0, .renewed 0 .renewed,
          .release "p", .resumed 2, .tryAcquire "p" 2 "u", .executed 3, .acquired 3 (some 2)] :=
  releases_and_spares _ _ (by decide +kernel)

/-- **A renewal can lose a race.** The lease is released while it is being renewed, and
comes back with the reply; and with the lease acquired anew in between, the reply overwrites
the new lease with the old one. With Redlock, too. -/
theorem not_releases_and_spares :
    ¬ AllStates (step ⟨.primary, "w", false, 150⟩) State.Releases State.init
        [.connected, .registered, .tryAcquire "p" 1 "t", .executed 0, .acquired 0 (some 1),
          .renew "p", .executed 1, .release "p", .resumed 2, .renewed 1 .renewed]
      ∧ ¬ AllSteps (step ⟨.primary, "w", false, 150⟩) Spares State.init
        [.connected, .registered, .tryAcquire "p" 1 "t", .executed 0, .acquired 0 (some 1),
          .renew "p", .executed 1, .release "p", .resumed 2,
          .tryAcquire "p" 2 "u", .executed 3, .acquired 3 (some 2), .renewed 1 .renewed]
      ∧ ¬ AllStates (step ⟨.redlock, "w", false, 150⟩) State.Releases State.init
        [.connected, .registered, .tryAcquire "p" 1 "t", .executed 0, .acquired 0 (some 1),
          .renew "p", .executed 1, .release "p", .resumed 2, .renewed 1 .renewed]
      ∧ ¬ AllSteps (step ⟨.redlock, "w", false, 150⟩) Spares State.init
        [.connected, .registered, .tryAcquire "p" 1 "t", .executed 0, .acquired 0 (some 1),
          .renew "p", .release "p", .resumed 2, .tryAcquire "p" 2 "u", .executed 3,
          .acquired 3 (some 2), .renewed 1 .failed, .resumed 1] := by
  decide +kernel

end Coordinator

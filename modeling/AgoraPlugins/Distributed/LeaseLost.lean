import AgoraPlugins.Distributed.Coordinator

/-!
# The callback for lost leases

A local lease that is lost goes with a call of the lease-lost callback, and one that is
released or given up by `stop` goes without. `mark_lease_lost` does both at once, the
discarding and the call, before it awaits anything.

Two things go otherwise. A validation that finds the lease gone, or of another, discards
the entry and tells nobody. And `mark_lease_lost` calls the callback whatever it has
discarded: also where the lease has been released since the renewal began, or has been
marked lost by another renewal. In a step of a run the law holds just when neither of them
happens there.
-/

open Machine

namespace Coordinator

variable {cfg : Config} {s t : State}

/-! ## The law -/

/-- How often the callback has been invoked for a pipeline. -/
def State.notices (s : State) (pipelineId : String) : ℕ :=
  s.notified.countP (fun n => n.1 = pipelineId)

/-- The task is `stop`, and past the wait for the loop. -/
def Task.isStop : Task → Bool
  | .draining _ | .closing => true
  | _ => false

/-- The step is one of `release_lease` or of `stop`. -/
def State.releasing (s : State) : Event → Bool
  | .release _ | .stop | .unwaited _ _ => true
  | .resumed i | .raised i => (s.tasks[i]?).any Task.isStop
  | _ => false

/-- A lease is gone with the step. -/
def Removes (s t : State) (pipelineId : String) : Prop :=
  pipelineId ∈ s.leaseTokens ∧ pipelineId ∉ t.leaseTokens

instance (s t : State) (pipelineId : String) : Decidable (Removes s t pipelineId) :=
  inferInstanceAs (Decidable (_ ∧ _))

/-- The callback is invoked once for the pipeline if its lease goes with the step, other than
by a release or by `stop`, and not at all if not. -/
def NotifiesOf (pipelineId : String) (s : State) (e : Event) (t : State) : Prop :=
  t.notices pipelineId = s.notices pipelineId
    + if Removes s t pipelineId ∧ s.releasing e = false then 1 else 0

/-- **The callback is invoked for what is lost**, and for nothing else. -/
def Notifies (s : State) (e : Event) (t : State) : Prop := ∀ p, NotifiesOf p s e t

/-- The pipeline that a task marks lost when it goes on. -/
def Task.marks : Task → Option String
  | .givingBack r _ | .marking (r :: _) _ => some r.pipelineId
  | _ => none

/-- The pipeline that a renewal marks lost when it has failed. -/
def Task.fails (cfg : Config) : Task → Option String
  | .renewing r _ _ => if cfg.store = .primary then some r.pipelineId else none
  | _ => none

/-- The pipeline that a step marks lost by what was read before. -/
def State.marks (cfg : Config) (s : State) : Event → Option String
  | .renewed i .failed => (s.tasks[i]?).bind (Task.fails cfg)
  | .resumed i => (s.tasks[i]?).bind Task.marks
  | _ => none

def Task.validates : Task → Option String
  | .validating p => some p
  | _ => none

/-- The pipeline whose lease a validation finds gone. -/
def State.invalidates (s : State) : Event → Option String
  | .validated i (some false) => (s.tasks[i]?).bind Task.validates
  | _ => none

/-- **When a step keeps to the law**: what it marks lost is there, and what it finds gone
is not. -/
def Heard (cfg : Config) (s : State) (e : Event) : Prop :=
  (∀ p ∈ s.marks cfg e, p ∈ s.leaseTokens) ∧ ∀ p ∈ s.invalidates e, p ∉ s.leaseTokens

/-! ## What the parts of a step do -/

theorem notices_congr (h : t.notified = s.notified) (p : String) : t.notices p = s.notices p := by
  unfold State.notices
  rw [h]

/-- **A step that invokes nothing** keeps to the law if no lease goes, or if it is one of a
release or of `stop`. -/
theorem notifies_of_quiet {e : Event} (hnotified : t.notified = s.notified)
    (hkeeps : s.releasing e = true ∨ ∀ p ∈ s.leaseTokens, p ∈ t.leaseTokens) :
    Notifies s e t := by
  intro p
  unfold NotifiesOf
  rw [notices_congr hnotified, if_neg, Nat.add_zero]
  rintro ⟨⟨hs, ht⟩, hnot⟩
  rcases hkeeps with hreleasing | hkeeps
  · rw [hreleasing] at hnot
    cases hnot
  · exact ht (hkeeps p hs)

/-- **A lease that is dropped** is not heard of. -/
theorem notifies_drop_iff {e : Event} {q : String} (hnotified : t.notified = s.notified)
    (hleases : t.leaseTokens = s.leaseTokens.erase q) (he : s.releasing e = false) :
    Notifies s e t ↔ q ∉ s.leaseTokens := by
  constructor
  · intro h hq
    have hremoves : Removes s t q := by
      refine ⟨hq, ?_⟩
      rw [hleases, AList.mem_erase]
      exact fun hmem => hmem.1 rfl
    have hq := h q
    unfold NotifiesOf at hq
    rw [notices_congr hnotified, if_pos ⟨hremoves, he⟩] at hq
    omega
  · intro hq
    refine notifies_of_quiet hnotified (.inr (fun p hp => ?_))
    rw [hleases, AList.mem_erase]
    refine ⟨?_, hp⟩
    rintro rfl
    exact hq hp

/-- **A lease that is marked lost** is heard of, whether it is there or not. -/
theorem notifies_markLost_iff {e : Event} {q : String}
    (hnotified : t.notified = (s.markLost q).notified)
    (hleases : t.leaseTokens = (s.markLost q).leaseTokens) (he : s.releasing e = false) :
    Notifies s e t ↔ q ∈ s.leaseTokens := by
  have hnotices : ∀ p, t.notices p = s.notices p + if q = p then 1 else 0 := by
    intro p
    rw [notices_congr hnotified]
    unfold State.notices State.markLost
    simp [List.countP_append, List.countP_cons]
  have hremoves : ∀ p, Removes s t p ↔ q = p ∧ q ∈ s.leaseTokens := by
    intro p
    unfold Removes
    rw [hleases]
    show _ ∧ ¬ p ∈ s.leaseTokens.erase q ↔ _
    rw [AList.mem_erase]
    constructor
    · rintro ⟨hp, hnot⟩
      by_cases hpq : q = p
      · exact ⟨hpq, hpq ▸ hp⟩
      · exact absurd ⟨Ne.symm hpq, hp⟩ hnot
    · rintro ⟨rfl, hq⟩
      exact ⟨hq, fun hmem => hmem.1 rfl⟩
  constructor
  · intro h
    have hq := h q
    unfold NotifiesOf at hq
    rw [hnotices, if_pos rfl] at hq
    by_contra hnot
    rw [if_neg (fun hand => hnot ((hremoves q).1 hand.1).2)] at hq
    omega
  · intro hq p
    unfold NotifiesOf
    rw [hnotices]
    congr 1
    by_cases hpq : q = p
    · rw [if_pos hpq, if_pos ⟨(hremoves p).2 ⟨hpq, hq⟩, he⟩]
    · rw [if_neg hpq, if_neg (fun hand => hpq ((hremoves p).1 hand.1).1)]

theorem heard_of_none {e : Event} (hmarks : s.marks cfg e = none)
    (hinvalidates : s.invalidates e = none) : Heard cfg s e := by
  unfold Heard
  rw [hmarks, hinvalidates]
  exact ⟨nofun, nofun⟩

theorem heard_iff_of_marks {e : Event} {q : String} (hmarks : s.marks cfg e = some q)
    (hinvalidates : s.invalidates e = none) : Heard cfg s e ↔ q ∈ s.leaseTokens := by
  unfold Heard
  rw [hmarks, hinvalidates]
  constructor
  · intro h
    exact h.1 q rfl
  · intro h
    exact ⟨fun p hp => Option.some.inj hp ▸ h, nofun⟩

/-- What comes after a renewal invokes nothing and keeps the leases. -/
theorem goOn_quiet (cfg : Config) (s : State) (i : ℕ) (next : Next) :
    (s.goOn cfg i next).notified = s.notified
      ∧ (s.goOn cfg i next).leaseTokens = s.leaseTokens := by
  cases next with
  | returns => exact ⟨rfl, rfl⟩
  | renews ps started =>
    obtain ⟨task, heq, _⟩ := s.renewLeases_eq cfg i started ps
    unfold State.goOn
    dsimp only
    rw [heq]
    exact ⟨rfl, rfl⟩

theorem notifies_of_eq {e : Event} (hnotified : t.notified = s.notified)
    (hleases : t.leaseTokens = s.leaseTokens) : Notifies s e t :=
  notifies_of_quiet hnotified (.inr (fun p hp => by
    rw [hleases]
    exact hp))

/-- A lease that is kept, or replaced, is not gone. -/
theorem mem_keep {s : State} {p : String} (q : String) (held : Held) (hp : p ∈ s.leaseTokens) :
    p ∈ (s.keep q held).leaseTokens :=
  (AList.mem_insert s.leaseTokens).2 (.inr hp)

theorem drain_notifies {e : Event} (i : ℕ) (ps : List String) (he : s.releasing e = true) :
    Notifies s e (State.drain i ps s) := by
  obtain ⟨t, task, heq, hdrops, _⟩ := State.drain_eq i ps s
  rw [heq]
  exact notifies_of_quiet hdrops.notified (.inl he)

/-! ## What a step does -/

section Steps

variable {i : ℕ} {u : Task} (hu : s.tasks[i]? = some u)
include hu

theorem notifies_answerRenew_iff {reply : RenewReply}
    (hs : s.answerRenew cfg i u reply = some t) :
    Notifies s (.renewed i reply) t ↔ Heard cfg s (.renewed i reply) := by
  unfold State.answerRenew at hs
  split at hs
  next r _ next =>
    cases hs
    obtain ⟨hnotified, hleases⟩ := goOn_quiet cfg (s.keep r.pipelineId r.held) i next
    refine iff_of_true (notifies_of_quiet hnotified (.inr (fun p hp => ?_)))
      (heard_of_none rfl rfl)
    rw [hleases]
    exact mem_keep r.pipelineId r.held hp
  next r _ next hstore =>
    cases hs
    have hmarks : s.marks cfg (.renewed i .failed) = some r.pipelineId := by
      show (s.tasks[i]?).bind (Task.fails cfg) = _
      rw [hu]
      exact if_pos hstore
    rw [heard_iff_of_marks hmarks rfl]
    exact notifies_markLost_iff rfl rfl rfl
  next r _ next hstore =>
    cases hs
    have hmarks : s.marks cfg (.renewed i .failed) = none := by
      show (s.tasks[i]?).bind (Task.fails cfg) = _
      rw [hu]
      exact if_neg (by
        rw [hstore]
        exact nofun)
    exact iff_of_true (notifies_of_eq rfl rfl) (heard_of_none hmarks rfl)
  next r _ next hstore =>
    cases hs
    obtain ⟨hnotified, hleases⟩ := goOn_quiet cfg s i next
    exact iff_of_true (notifies_of_eq hnotified hleases) (heard_of_none rfl rfl)
  next => cases hs

theorem notifies_answerValidate_iff {valid : Option Bool}
    (hs : s.answerValidate cfg i u valid = some t) :
    Notifies s (.validated i valid) t ↔ Heard cfg s (.validated i valid) := by
  unfold State.answerValidate at hs
  split at hs
  next p =>
    cases hs
    have hinvalidates : s.invalidates (.validated i (some false)) = some p := by
      show (s.tasks[i]?).bind Task.validates = _
      rw [hu]
      rfl
    have hdrop : Notifies s (.validated i (some false)) ((s.drop p).setTask i .ended)
        ↔ p ∉ s.leaseTokens := notifies_drop_iff rfl rfl rfl
    rw [hdrop]
    unfold Heard
    rw [hinvalidates]
    constructor
    · intro h
      exact ⟨nofun, fun q hq => Option.some.inj hq ▸ h⟩
    · intro h
      exact h.2 p rfl
  next =>
    cases hs
    exact iff_of_true (notifies_of_eq rfl rfl) (heard_of_none rfl rfl)
  next =>
    split at hs
    next =>
      cases hs
      exact iff_of_true (notifies_of_eq rfl rfl) (heard_of_none rfl rfl)
    next => cases hs
  next => cases hs

theorem notifies_resume_iff (hs : s.resume cfg i u = some t) :
    Notifies s (.resumed i) t ↔ Heard cfg s (.resumed i) := by
  have hmarks : s.marks cfg (.resumed i) = u.marks := by
    show (s.tasks[i]?).bind Task.marks = _
    rw [hu]
    rfl
  have hreleasing : s.releasing (.resumed i) = u.isStop := by
    show (s.tasks[i]?).any Task.isStop = _
    rw [hu]
    rfl
  unfold State.resume at hs
  split at hs
  next p c =>
    cases hs
    exact iff_of_true (notifies_of_eq rfl rfl) (heard_of_none hmarks rfl)
  next r next =>
    cases hs
    rw [heard_iff_of_marks hmarks rfl]
    exact notifies_markLost_iff rfl rfl hreleasing
  next next =>
    cases hs
    obtain ⟨hnotified, hleases⟩ := goOn_quiet cfg s i next
    exact iff_of_true (notifies_of_eq hnotified hleases) (heard_of_none hmarks rfl)
  next rs started =>
    cases hs
    cases rs with
    | nil => exact iff_of_true (notifies_of_eq rfl rfl) (heard_of_none hmarks rfl)
    | cons r rs =>
      rw [heard_iff_of_marks hmarks rfl]
      exact notifies_markLost_iff rfl rfl hreleasing
  next ps =>
    cases hs
    exact iff_of_true (drain_notifies i ps hreleasing) (heard_of_none hmarks rfl)
  next =>
    cases hs
    exact iff_of_true (notifies_of_quiet rfl (.inl hreleasing)) (heard_of_none hmarks rfl)
  next => cases hs

omit hu in
/-- At the deadline of a cycle a lease that is there is marked lost, if there is any. -/
theorem notifies_timeOut {ps : List String} (hs : s.timeOut cfg i ps u = some t) :
    Notifies s (.deadline i ps) t := by
  have hmarks : ∀ started,
      Notifies s (.deadline i ps) (s.markLeases i started (s.readings ps)) := by
    intro started
    cases hrs : s.readings ps with
    | nil => exact notifies_of_eq rfl rfl
    | cons r rs =>
      have hr : r ∈ s.readings ps := by
        rw [hrs]
        exact List.mem_cons_self
      obtain ⟨p, _, hr⟩ := List.mem_filterMap.1 hr
      obtain ⟨held, hp, rfl⟩ := Option.map_eq_some_iff.1 hr
      have hmem : p ∈ s.leaseTokens := AList.lookup_isSome.1 (Option.isSome_iff_exists.2 ⟨_, hp⟩)
      exact (notifies_markLost_iff rfl rfl rfl).2 hmem
  unfold State.timeOut at hs
  split at hs
  case h_4 => cases hs
  all_goals
    obtain ⟨_, hs⟩ := Option.ite_none_right_eq_some.1 hs
    cases hs
    exact hmarks _

theorem notifies_raise {e : Event} (he : e = .raised i) (hs : s.raise i u = some t) :
    Notifies s e t := by
  subst he
  unfold State.raise at hs
  split at hs
  case h_7 ps =>
    cases hs
    have hreleasing : s.releasing (.raised i) = true := by
      show (s.tasks[i]?).any Task.isStop = _
      rw [hu]
      rfl
    exact drain_notifies i ps hreleasing
  case h_8 | h_9 | h_10 | h_11 | h_12 => cases hs
  all_goals
    cases hs
    exact notifies_of_eq rfl rfl

end Steps

/-- **A step keeps to the law** just when what it marks lost is there and what it finds
gone is not. -/
theorem notifies_iff_heard {e : Event} (hs : step cfg s e = some t) :
    Notifies s e t ↔ Heard cfg s e := by
  -- where nothing is marked lost and nothing found gone, both sides hold
  have htrue : Notifies s e t → s.marks cfg e = none → s.invalidates e = none →
      (Notifies s e t ↔ Heard cfg s e) :=
    fun h hmarks hinvalidates => iff_of_true h (heard_of_none hmarks hinvalidates)
  cases e with
  | connected | disconnected | tick =>
    cases hs
    exact htrue (notifies_of_eq rfl rfl) rfl rfl
  | registered | loopStarted =>
    obtain ⟨_, hs⟩ := Option.ite_none_right_eq_some.1 hs
    cases hs
    exact htrue (notifies_of_eq rfl rfl) rfl rfl
  | tryAcquire p n a =>
    cases hs
    refine htrue ?_ rfl rfl
    unfold State.tryAcquire
    split
    next =>
      unfold State.acquireLocal
      split
      next => exact notifies_of_quiet rfl (.inr (fun q hq => mem_keep p _ hq))
      next => exact notifies_of_eq rfl rfl
    next =>
      split
      next => exact notifies_of_eq rfl rfl
      next => exact notifies_of_eq rfl rfl
  | release p =>
    cases hs
    refine htrue (notifies_of_quiet ?_ (.inl rfl)) rfl rfl
    unfold State.release
    dsimp only
    split
    next => rfl
    next =>
      split
      next => rfl
      next =>
        split
        next => rfl
        next => rfl
  | validate p token =>
    cases hs
    refine htrue ?_ rfl rfl
    unfold State.validate
    split
    next => exact notifies_of_eq rfl rfl
    next =>
      split
      next => exact notifies_of_eq rfl rfl
      next => exact notifies_of_eq rfl rfl
  | renew p =>
    cases hs
    refine htrue ?_ rfl rfl
    unfold State.renew
    split
    next => exact notifies_of_eq rfl rfl
    next => exact notifies_of_eq rfl rfl
  | stop =>
    cases hs
    refine htrue (notifies_of_quiet ?_ (.inl rfl)) rfl rfl
    unfold State.stop
    split
    next => rfl
    next => rfl
  -- a command is executed: only now may a lease be found gone
  | executed i =>
    obtain ⟨u, hu, hs⟩ := Option.bind_eq_some_iff.1 hs
    unfold State.execute at hs
    split at hs
    next =>
      cases hs
      exact htrue (notifies_of_eq rfl rfl) rfl rfl
    next =>
      cases hs
      exact htrue (notifies_of_eq rfl rfl) rfl rfl
    next => cases hs
  | acquired i token =>
    obtain ⟨u, hu, hs⟩ := Option.bind_eq_some_iff.1 hs
    unfold State.answerAcquire at hs
    split at hs
    next =>
      cases hs
      exact htrue (notifies_of_quiet rfl (.inr (fun q hq => mem_keep _ _ hq))) rfl rfl
    next =>
      cases hs
      exact htrue (notifies_of_eq rfl rfl) rfl rfl
    next => cases hs
  | validated i valid =>
    obtain ⟨u, hu, hs⟩ := Option.bind_eq_some_iff.1 hs
    exact notifies_answerValidate_iff hu hs
  | renewed i reply =>
    obtain ⟨u, hu, hs⟩ := Option.bind_eq_some_iff.1 hs
    exact notifies_answerRenew_iff hu hs
  | resumed i =>
    obtain ⟨u, hu, hs⟩ := Option.bind_eq_some_iff.1 hs
    exact notifies_resume_iff hu hs
  | woken i ps =>
    obtain ⟨u, hu, hs⟩ := Option.bind_eq_some_iff.1 hs
    unfold State.wake at hs
    split at hs
    next =>
      obtain ⟨_, hs⟩ := Option.ite_none_right_eq_some.1 hs
      obtain ⟨task, heq, _⟩ := s.renewLeases_eq cfg i s.now ps
      cases hs
      rw [heq] at htrue ⊢
      exact htrue (notifies_of_eq rfl rfl) rfl rfl
    next => cases hs
  | deadline i ps =>
    obtain ⟨u, hu, hs⟩ := Option.bind_eq_some_iff.1 hs
    exact htrue (notifies_timeOut hs) rfl rfl
  | unwaited i ps =>
    obtain ⟨u, hu, hs⟩ := Option.bind_eq_some_iff.1 hs
    unfold State.unwait at hs
    split at hs
    next =>
      obtain ⟨_, hs⟩ := Option.ite_none_right_eq_some.1 hs
      cases hs
      exact htrue (drain_notifies i ps rfl) rfl rfl
    next => cases hs
  | raised i =>
    obtain ⟨u, hu, hs⟩ := Option.bind_eq_some_iff.1 hs
    exact htrue (notifies_raise hu rfl hs) rfl rfl
  | cancelled i =>
    obtain ⟨u, hu, hs⟩ := Option.bind_eq_some_iff.1 hs
    unfold State.cancel at hs
    split at hs
    next => cases hs
    next =>
      cases hs
      exact htrue (notifies_of_eq rfl rfl) rfl rfl

/-- **The callback is invoked for what is lost, once**, in just the runs whose steps mark
lost what is there and whose validations find gone what is not. -/
theorem allSteps_notifies_iff (cfg : Config) (es : List Event) :
    AllSteps (step cfg) Notifies State.init es
      ↔ AllSteps (step cfg) (fun s e _ => Heard cfg s e) State.init es := by
  have hstep : ∀ (s : State) (e : Event) (t : State), True → step cfg s e = some t →
      (Notifies s e t ↔ Heard cfg s e) := fun _ _ _ _ hs => notifies_iff_heard hs
  exact allSteps_congr (fun _ _ _ _ _ => trivial) hstep trivial es

instance (p : String) (s : State) (e : Event) (t : State) : Decidable (NotifiesOf p s e t) :=
  inferInstanceAs (Decidable (_ = _))

/-- **A lease can be lost unheard, and heard of without being lost.** A validation finds the
lease gone; and a renewal that began before a release fails after it. -/
theorem not_allSteps_notifies :
    ¬ AllSteps (step ⟨.primary, "w", false, 150⟩) Notifies State.init
        [.connected, .registered, .tryAcquire "p" 1 "t", .executed 0, .acquired 0 (some 1),
          .validate "p" 1, .validated 1 (some false)]
      ∧ ¬ AllSteps (step ⟨.redlock, "w", false, 150⟩) Notifies State.init
        [.connected, .registered, .tryAcquire "p" 1 "t", .executed 0, .acquired 0 (some 1),
          .validate "p" 1, .validated 1 (some false)]
      ∧ ¬ AllSteps (step ⟨.primary, "w", false, 150⟩) Notifies State.init
        [.connected, .registered, .tryAcquire "p" 1 "t", .executed 0, .acquired 0 (some 1),
          .renew "p", .release "p", .resumed 2, .renewed 1 .failed] := by
  have hp : ∀ cfg es, AllSteps (step cfg) Notifies State.init es →
      AllSteps (step cfg) (NotifiesOf "p") State.init es :=
    fun _ _ h => h.mono (fun _ _ _ hall => hall "p")
  refine ⟨mt (hp _ _) ?_, mt (hp _ _) ?_, mt (hp _ _) ?_⟩
  · decide +kernel
  · decide +kernel
  · decide +kernel

end Coordinator

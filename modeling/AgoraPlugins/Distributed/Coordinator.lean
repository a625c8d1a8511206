import AgoraPlugins.Distributed.Redlock

/-!
# The coordinator of a worker

A coordinator keeps the leases of its worker in a dictionary, by pipeline. Its methods
read that dictionary, await Redis, and write or discard an entry by the pipeline alone
when the reply is in; and so do the renewal loop and `stop`, which run beside them. What
happens between two await points happens at once, so a run of the coordinator is a run of
such segments, those of different tasks in any order.

What Redis replies is up to the events, and its nodes do not appear: a call is executed,
at some time, and answered later, or raises. For Redlock the time is that of the first of
the nodes the coordinator comes to count.

Beside the dictionary the state has what has happened so far: what Redis has stored and
when, which acquisitions have succeeded, which releases have begun and which have ended,
for which pipelines the callback has been invoked, and which leases are gone without it.
No method reads any of these. A callback is set throughout.
-/

open Machine

deriving instance DecidableEq for LeaseState

namespace Coordinator

/-- Which collaborator keeps the leases in Redis. -/
inductive Store where
  | primary
  | redlock
  deriving DecidableEq

/-- How the coordinator is configured, and the store that its leases are in. -/
structure Config where
  store : Store
  workerId : String
  fallbackToLocal : Bool
  /-- `renewal_cycle_deadline_s` -/
  deadline : ℕ

/-- **A local lease**, and the acquisition it is from, which the code does not keep. -/
structure Held where
  lease : LeaseState
  acquisition : ℕ
  deriving DecidableEq

/-- **What a renewal has read**: a lease, when so many acquisitions of the pipeline had
succeeded and so many releases of it had begun. -/
structure Reading where
  pipelineId : String
  held : Held
  acquires : ℕ
  releases : ℕ
  deriving DecidableEq

/-- What comes after a renewal. -/
inductive Next where
  /-- `renew_lease` returns -/
  | returns
  /-- `renew_leases_once`, begun at this time, goes on with these pipelines -/
  | renews (pipelineIds : List String) (started : ℕ)
  deriving DecidableEq

/-- **A task at an await point**, or at its end. -/
inductive Task where
  /-- `try_acquire`, and when Redis has stored its lease -/
  | acquiring (pipelineId : String) (runNumber : ℕ) (acquiredAt : String) (stored : Option ℕ)
  /-- `release`, begun when so many acquisitions of the pipeline had succeeded -/
  | releasing (pipelineId : String) (acquires : ℕ)
  | validating (pipelineId : String)
  /-- `renew`, and when Redis has renewed its lease -/
  | renewing (r : Reading) (renewed : Option ℕ) (next : Next)
  /-- `renew` of Redlock, where it has failed and releases the nodes it has renewed -/
  | givingBack (r : Reading) (next : Next)
  /-- `renew`, where it has failed and the callback of `mark_lease_lost` runs -/
  | notifying (next : Next)
  /-- `mark_all_leases_lost`, where a callback runs and these leases are left, after a cycle
  begun at this time -/
  | marking (leases : List Reading) (started : ℕ)
  /-- the renewal loop between two cycles -/
  | sleeping
  /-- `stop`, until the loop has ended -/
  | stopping
  /-- `stop`, where it releases the leases, these left -/
  | draining (pipelineIds : List String)
  /-- `stop`, where it stops the session -/
  | closing
  | ended
  deriving DecidableEq

/-- The renewal is one of the loop. -/
def Next.isLoop : Next → Bool
  | .returns => false
  | .renews _ _ => true

/-- The renewal loop. -/
def Task.isLoop : Task → Bool
  | .renewing _ _ next | .givingBack _ next | .notifying next => next.isLoop
  | .marking _ _ | .sleeping => true
  | _ => false

/-- **The state of the coordinator**, of its tasks and of the time. -/
structure State where
  /-- `_redis` is set -/
  redis : Bool
  /-- the scripts are registered -/
  scripts : Bool
  leaseTokens : Dict String Held
  localFencingTokens : Dict String ℕ
  tasks : List Task
  now : ℕ
  /-- when Redis has stored or renewed the lease of an acquisition -/
  stores : List (ℕ × ℕ)
  /-- the acquisitions that have succeeded, the last one first -/
  acquired : List (String × ℕ)
  /-- the releases that have begun, with the acquisitions of the pipeline until then -/
  begun : List (String × ℕ)
  /-- those of them that have returned -/
  released : List (String × ℕ)
  /-- for which pipeline the callback has been invoked, and for which acquisition -/
  notified : List (String × Option ℕ)
  /-- the acquisitions whose lease is gone or replaced, without the callback -/
  dropped : List ℕ

def State.init : State where
  redis := false
  scripts := false
  leaseTokens := ∅
  localFencingTokens := ∅
  tasks := []
  now := 0
  stores := []
  acquired := []
  begun := []
  released := []
  notified := []
  dropped := []

/-- **What the renewal of a lease comes to.** -/
inductive RenewReply where
  /-- the script has renewed the lease, or a quorum of nodes has, in time -/
  | renewed
  | failed
  /-- the call of the script has raised, which Redlock counts with the failures -/
  | error
  deriving DecidableEq

/-- What can happen. A method is called, and runs to its first await point; a task goes
on from the await point it is at; the session or the clock changes. -/
inductive Event where
  | connected
  | registered
  | disconnected
  | loopStarted
  | tick
  | tryAcquire (pipelineId : String) (runNumber : ℕ) (acquiredAt : String)
  | release (pipelineId : String)
  | validate (pipelineId : String) (fencingToken : ℕ)
  | renew (pipelineId : String)
  | stop
  /-- Redis executes the script of a task -/
  | executed (task : ℕ)
  /-- the reply to an acquisition: the fencing token, or that there is no lease -/
  | acquired (task : ℕ) (fencingToken : Option ℕ)
  /-- the reply to a validation: whether the lease is there, or the call has raised -/
  | validated (task : ℕ) (valid : Option Bool)
  | renewed (task : ℕ) (reply : RenewReply)
  /-- what the task awaits is over -/
  | resumed (task : ℕ)
  /-- the loop wakes up, and finds these pipelines -/
  | woken (task : ℕ) (pipelineIds : List String)
  /-- the deadline of a cycle has passed, and there are leases of these pipelines -/
  | deadline (task : ℕ) (pipelineIds : List String)
  /-- the loop has ended or is not waited for any longer, and `stop` finds these pipelines -/
  | unwaited (task : ℕ) (pipelineIds : List String)
  /-- what the task awaits raises a programming error -/
  | raised (task : ℕ)
  | cancelled (task : ℕ)

namespace State

variable (cfg : Config) (s : State)

/-- How many acquisitions of the pipeline have succeeded. -/
def acquires (pipelineId : String) : ℕ := s.acquired.countP (fun a => a.1 = pipelineId)

/-- How many releases of the pipeline have begun. -/
def releases (pipelineId : String) : ℕ := s.begun.countP (fun b => b.1 = pipelineId)

def read (pipelineId : String) (held : Held) : Reading :=
  ⟨pipelineId, held, s.acquires pipelineId, s.releases pipelineId⟩

def start (t : Task) : State := { s with tasks := s.tasks ++ [t] }

def setTask (i : ℕ) (t : Task) : State := { s with tasks := s.tasks.set i t }

/-! ### The local leases -/

/-- `lease_tokens[pipeline_id] = lease`. -/
def keep (pipelineId : String) (held : Held) : State :=
  { s with
    leaseTokens := s.leaseTokens.insert pipelineId held
    dropped := s.dropped ++ ((s.leaseTokens.lookup pipelineId).toList.map Held.acquisition).filter
      (fun a => a ≠ held.acquisition) }

/-- `lease_tokens.pop(pipeline_id, None)`, other than for `mark_lease_lost`. -/
def drop (pipelineId : String) : State :=
  { s with
    leaseTokens := s.leaseTokens.erase pipelineId
    dropped := s.dropped ++ (s.leaseTokens.lookup pipelineId).toList.map Held.acquisition }

/-- `clear`. -/
def clear : State :=
  { s with
    leaseTokens := ∅
    dropped := s.dropped ++ s.leaseTokens.entries.map (fun e => e.2.acquisition) }

/-- `mark_lease_lost`, up to the await of the callback. -/
def markLost (pipelineId : String) : State :=
  { s with
    leaseTokens := s.leaseTokens.erase pipelineId
    notified := s.notified
      ++ [(pipelineId, (s.leaseTokens.lookup pipelineId).map Held.acquisition)] }

/-- An acquisition succeeds. -/
def acquire (pipelineId : String) (held : Held) : State :=
  { s.keep pipelineId held with acquired := (pipelineId, held.acquisition) :: s.acquired }

/-- **The state of a lease** as it is handed out. -/
def leaseOf (pipelineId : String) (runNumber fencingToken : ℕ) (acquiredAt : String) :
    LeaseState :=
  ⟨pipelineId, runNumber, cfg.workerId, fencingToken, acquiredAt⟩

/-! ### Renewals -/

/-- A renewal awaits Redis. If not, it returns at once, and leaves the lease what it is
but for the time of the renewal. -/
def canRenew : Bool := s.redis && (cfg.store = .redlock || s.scripts)

/-- `renew_leases_once`, from these pipelines on up to its next await point or its end. -/
def renewLeases (i started : ℕ) : List String → State
  | [] => s.setTask i .sleeping
  | p :: ps =>
    match s.canRenew cfg, s.leaseTokens.lookup p with
    | true, some held => s.setTask i (.renewing (s.read p held) none (.renews ps started))
    | _, _ => renewLeases i started ps

/-- `mark_all_leases_lost`, from these leases on. -/
def markLeases (i started : ℕ) : List Reading → State
  | [] => s.setTask i .sleeping
  | r :: rs => (s.markLost r.pipelineId).setTask i (.marking rs started)

/-- What comes after a renewal. -/
def goOn (i : ℕ) : Next → State
  | .returns => s.setTask i .ended
  | .renews ps started => s.renewLeases cfg i started ps

/-- `active_leases`, in this order of the pipelines. -/
def readings (pipelineIds : List String) : List Reading :=
  pipelineIds.filterMap (fun p => (s.leaseTokens.lookup p).map (s.read p))

/-! ### The methods -/

/-- `acquire_local_fallback_lease`. -/
def acquireLocal (pipelineId : String) (runNumber : ℕ) (acquiredAt : String) : State :=
  if cfg.fallbackToLocal = true ∧ pipelineId ∉ s.leaseTokens then
    let fencingToken := (s.localFencingTokens.lookup pipelineId).getD 0 + 1
    { s.acquire pipelineId
        ⟨leaseOf cfg pipelineId runNumber fencingToken acquiredAt, s.tasks.length⟩ with
      localFencingTokens := s.localFencingTokens.insert pipelineId fencingToken }
  else s

/-- **`try_acquire`**, up to its command. -/
def tryAcquire (pipelineId : String) (runNumber : ℕ) (acquiredAt : String) : State :=
  if s.redis = false then (s.acquireLocal cfg pipelineId runNumber acquiredAt).start .ended
  else if cfg.store = .primary ∧ s.scripts = false then s.start .ended
  else s.start (.acquiring pipelineId runNumber acquiredAt none)

/-- A release begins, or has returned, with what was acquired when it began. -/
def beginRelease (pipelineId : String) : State :=
  { s with begun := (pipelineId, s.acquires pipelineId) :: s.begun }

/-- What comes after the command of a release. -/
def endRelease (pipelineId : String) (acquires : ℕ) : State :=
  { s with released := (pipelineId, acquires) :: s.released }

/-- **`release`**, which drops the lease before its command. -/
def release (pipelineId : String) : State :=
  let s' := s.beginRelease pipelineId
  if s.redis = false then (s'.drop pipelineId).endRelease pipelineId (s.acquires pipelineId)
  else if s.scripts = false then s'.endRelease pipelineId (s.acquires pipelineId)
  else match s.leaseTokens.lookup pipelineId with
    | none => s'.endRelease pipelineId (s.acquires pipelineId)
    | some _ => (s'.drop pipelineId).start (.releasing pipelineId (s.acquires pipelineId))

/-- **`validate`.** -/
def validate (pipelineId : String) (fencingToken : ℕ) : State :=
  if s.redis = false then s.start .ended
  else if cfg.store = .redlock
      ∧ ¬ (s.leaseTokens.lookup pipelineId).any (fun h => h.lease.fencingToken = fencingToken) then
    s.start .ended
  else s.start (.validating pipelineId)

/-- **`renew`.** -/
def renew (pipelineId : String) : State :=
  match s.canRenew cfg, s.leaseTokens.lookup pipelineId with
  | true, some held => s.start (.renewing (s.read pipelineId held) none .returns)
  | _, _ => s.start .ended

def stop : State :=
  if s.redis = false then s.clear.start .ended else s.start .stopping

/-- `stop` releases the leases of these pipelines, up to its next await point. -/
def drain (i : ℕ) : List String → State → State
  | [], s => s.setTask i .closing
  | p :: ps, s =>
    match s.redis, s.scripts, s.leaseTokens.lookup p with
    | false, _, some _ => drain i ps (s.drop p)
    | true, true, some _ => (s.drop p).setTask i (.draining ps)
    | _, _, _ => drain i ps s

/-! ### What a task awaits is over -/

/-- Redis executes the script of a task, if it does what is asked. -/
def execute (i : ℕ) : Task → Option State
  | .acquiring p n a none => some
      { s.setTask i (.acquiring p n a (some s.now)) with stores := (i, s.now) :: s.stores }
  | .renewing r none next => some
      { s.setTask i (.renewing r (some s.now) next) with
        stores := (r.held.acquisition, s.now) :: s.stores }
  | _ => none

/-- What the reply to an acquisition leads to. -/
def answerAcquire (i : ℕ) (t : Task) (fencingToken : Option ℕ) : Option State :=
  match t, fencingToken with
  | .acquiring p n a (some _), some token =>
    some ((s.acquire p ⟨leaseOf cfg p n token a, i⟩).setTask i .ended)
  | .acquiring _ _ _ _, none => some (s.setTask i .ended)
  | _, _ => none

/-- **What the reply to a validation leads to**: a lease that is not held any longer is dropped. -/
def answerValidate (i : ℕ) (t : Task) (valid : Option Bool) : Option State :=
  match t, valid with
  | .validating p, some false => some ((s.drop p).setTask i .ended)
  | .validating _, some true => some (s.setTask i .ended)
  | .validating _, none => if cfg.store = .primary then some (s.setTask i .ended) else none
  | _, _ => none

/-- **What the reply to a renewal leads to**: a lease that was renewed is kept, one that was not is
lost, and an error of the primary store leaves it as it is. -/
def answerRenew (i : ℕ) (t : Task) (reply : RenewReply) : Option State :=
  match t, reply, cfg.store with
  | .renewing r (some _) next, .renewed, _ => some ((s.keep r.pipelineId r.held).goOn cfg i next)
  | .renewing r _ next, .failed, .primary =>
    some ((s.markLost r.pipelineId).setTask i (.notifying next))
  | .renewing r _ next, .failed, .redlock => some (s.setTask i (.givingBack r next))
  | .renewing _ _ next, .error, .primary => some (s.goOn cfg i next)
  | _, _, _ => none

/-- **A task goes on** after its command, or after another task. -/
def resume (i : ℕ) : Task → Option State
  | .releasing p acquires => some ((s.endRelease p acquires).setTask i .ended)
  | .givingBack r next => some ((s.markLost r.pipelineId).setTask i (.notifying next))
  | .notifying next => some (s.goOn cfg i next)
  | .marking rs started => some (s.markLeases i started rs)
  | .draining ps => some (drain i ps s)
  | .closing => some ({ s.clear with redis := false }.setTask i .ended)
  | _ => none

/-- The loop wakes up. `active_pipeline_ids` has the pipelines in the order of the
dictionary, which is any here. -/
def wake (i : ℕ) (pipelineIds : List String) : Task → Option State
  | .sleeping => if pipelineIds.Perm s.leaseTokens.keys then
      some (s.renewLeases cfg i s.now pipelineIds) else none
  | _ => none

/-- `stop` does not wait for the loop any longer. -/
def unwait (i : ℕ) (pipelineIds : List String) : Task → Option State
  | .stopping => if pipelineIds.Perm s.leaseTokens.keys then some (drain i pipelineIds s) else none
  | _ => none

/-- The deadline of a cycle cancels what it awaits. -/
def timeOut (i : ℕ) (pipelineIds : List String) : Task → Option State
  | .renewing _ _ (.renews _ started) | .givingBack _ (.renews _ started)
  | .notifying (.renews _ started) =>
    if started + cfg.deadline ≤ s.now ∧ pipelineIds.Perm s.leaseTokens.keys then
      some (s.markLeases i started (s.readings pipelineIds))
    else none
  | _ => none

/-- A programming error leaves a method, and ends a cycle of the loop. -/
def raise (i : ℕ) : Task → Option State
  | .acquiring _ _ _ _ | .releasing _ _ | .validating _ | .closing => some (s.setTask i .ended)
  | .renewing _ _ next | .givingBack _ next =>
    some (s.setTask i (if next.isLoop then .sleeping else .ended))
  | .draining ps => some (drain i ps s)
  | .notifying _ | .marking _ _ | .sleeping | .stopping | .ended => none

/-- A task is cancelled, wherever it waits. -/
def cancel (i : ℕ) : Task → Option State
  | .ended => none
  | _ => some (s.setTask i .ended)

end State

variable (cfg : Config)

/-- **One event.** -/
def step (s : State) : Event → Option State
  | .connected => some { s with redis := true }
  | .registered => if s.redis = true then some { s with scripts := true } else none
  | .disconnected => some { s with redis := false }
  | .loopStarted =>
    if s.scripts = true ∧ ¬ s.tasks.any Task.isLoop then some (s.start .sleeping) else none
  | .tick => some { s with now := s.now + 1 }
  | .tryAcquire p runNumber acquiredAt => some (s.tryAcquire cfg p runNumber acquiredAt)
  | .release p => some (s.release p)
  | .validate p fencingToken => some (s.validate cfg p fencingToken)
  | .renew p => some (s.renew cfg p)
  | .stop => some s.stop
  | .executed i => (s.tasks[i]?).bind (s.execute i)
  | .acquired i fencingToken => (s.tasks[i]?).bind (fun t => s.answerAcquire cfg i t fencingToken)
  | .validated i valid => (s.tasks[i]?).bind (fun t => s.answerValidate cfg i t valid)
  | .renewed i reply => (s.tasks[i]?).bind (fun t => s.answerRenew cfg i t reply)
  | .resumed i => (s.tasks[i]?).bind (s.resume cfg i)
  | .woken i pipelineIds => (s.tasks[i]?).bind (s.wake cfg i pipelineIds)
  | .deadline i pipelineIds => (s.tasks[i]?).bind (s.timeOut cfg i pipelineIds)
  | .unwaited i pipelineIds => (s.tasks[i]?).bind (s.unwait i pipelineIds)
  | .raised i => (s.tasks[i]?).bind (s.raise i)
  | .cancelled i => (s.tasks[i]?).bind (s.cancel i)


/-! ## What the parts of a step do -/

namespace State

variable {cfg : Config} {s t u : State}

/-- **The cycle goes on** with the next pipeline that has a lease, if renewals await Redis,
and is at its end where there is none. -/
theorem renewLeases_eq (cfg : Config) (i started : ℕ) (ps : List String) :
    ∃ task, s.renewLeases cfg i started ps = s.setTask i task ∧
      ((task = .sleeping ∧ (s.canRenew cfg = true → ∀ q ∈ ps, s.leaseTokens.lookup q = none))
        ∨ ∃ p held ps', s.canRenew cfg = true ∧ s.leaseTokens.lookup p = some held
          ∧ task = .renewing (s.read p held) none (.renews ps' started)
          ∧ ∀ q ∈ ps, q = p ∨ q ∈ ps' ∨ s.leaseTokens.lookup q = none) := by
  induction ps with
  | nil => exact ⟨.sleeping, rfl, .inl ⟨rfl, fun _ => nofun⟩⟩
  | cons p ps ih =>
    unfold renewLeases
    split
    next held hcan hp =>
      exact ⟨_, rfl, .inr ⟨p, held, ps, hcan, hp, rfl, fun q hq =>
        (List.mem_cons.1 hq).imp_right .inl⟩⟩
    next hnot =>
      have hp : s.canRenew cfg = true → s.leaseTokens.lookup p = none := fun hcan =>
        Option.eq_none_iff_forall_ne_some.2 (fun held hp => hnot held hcan hp)
      obtain ⟨task, heq, hcases⟩ := ih
      refine ⟨task, heq, ?_⟩
      rcases hcases with ⟨htask, hnone⟩ | ⟨p', held, ps', hcan, hp', htask, hall⟩
      · refine .inl ⟨htask, fun hcan q hq => ?_⟩
        rcases List.mem_cons.1 hq with rfl | hq
        · exact hp hcan
        · exact hnone hcan q hq
      · refine .inr ⟨p', held, ps', hcan, hp', htask, fun q hq => ?_⟩
        rcases List.mem_cons.1 hq with rfl | hq
        · exact .inr (.inr (hp hcan))
        · exact hall q hq

/-- **Leases are dropped**, and nothing else happens. -/
structure Drops (s t : State) : Prop where
  leases : ∀ p held, t.leaseTokens.lookup p = some held → s.leaseTokens.lookup p = some held
  gone : ∀ p held, s.leaseTokens.lookup p = some held →
    t.leaseTokens.lookup p = some held ∨ held.acquisition ∈ t.dropped
  dropped : ∀ a ∈ s.dropped, a ∈ t.dropped
  tasks : t.tasks = s.tasks
  now : t.now = s.now
  stores : t.stores = s.stores
  acquired : t.acquired = s.acquired
  begun : t.begun = s.begun
  released : t.released = s.released
  notified : t.notified = s.notified

theorem Drops.refl (s : State) : s.Drops s :=
  ⟨fun _ _ h => h, fun _ _ h => .inl h, fun _ h => h, rfl, rfl, rfl, rfl, rfl, rfl, rfl⟩

theorem Drops.trans (h : s.Drops t) (h' : t.Drops u) : s.Drops u where
  leases p held hu := h.leases p held (h'.leases p held hu)
  gone p held hs := (h.gone p held hs).elim (h'.gone p held)
    (fun hdropped => .inr (h'.dropped _ hdropped))
  dropped a ha := h'.dropped a (h.dropped a ha)
  tasks := h'.tasks.trans h.tasks
  now := h'.now.trans h.now
  stores := h'.stores.trans h.stores
  acquired := h'.acquired.trans h.acquired
  begun := h'.begun.trans h.begun
  released := h'.released.trans h.released
  notified := h'.notified.trans h.notified

/-- What is found after an erasure was there. -/
theorem lookup_of_lookup_erase {d : Dict String Held} {p q : String} {held : Held}
    (h : (d.erase p).lookup q = some held) : q ≠ p ∧ d.lookup q = some held := by
  by_cases hq : q = p
  · rw [hq, AList.lookup_erase] at h
    cases h
  · rw [AList.lookup_erase_ne hq] at h
    exact ⟨hq, h⟩

theorem drops_drop (s : State) (p : String) : s.Drops (s.drop p) where
  leases q held hq := (lookup_of_lookup_erase hq).2
  gone q held hq := by
    by_cases hqp : q = p
    · subst hqp
      refine .inr (List.mem_append_right _ ?_)
      rw [hq]
      exact List.mem_singleton_self _
    · exact .inl ((AList.lookup_erase_ne hqp).trans hq)
  dropped a ha := List.mem_append_left _ ha
  tasks := rfl
  now := rfl
  stores := rfl
  acquired := rfl
  begun := rfl
  released := rfl
  notified := rfl

theorem drops_clear (s : State) : s.Drops s.clear where
  leases q held hq := by cases hq
  gone q held hq := by
    refine .inr (List.mem_append_right _ (List.mem_map.2 ⟨⟨q, held⟩, ?_, rfl⟩))
    exact AList.mem_lookup_iff.1 hq
  dropped a ha := List.mem_append_left _ ha
  tasks := rfl
  now := rfl
  stores := rfl
  acquired := rfl
  begun := rfl
  released := rfl
  notified := rfl

/-- **`stop` drops leases** until it awaits Redis or has none left. -/
theorem drain_eq (i : ℕ) (ps : List String) (s : State) :
    ∃ t task, drain i ps s = t.setTask i task ∧ s.Drops t
      ∧ (task = .closing ∨ ∃ ps', task = .draining ps') := by
  induction ps generalizing s with
  | nil => exact ⟨s, .closing, rfl, .refl s, .inl rfl⟩
  | cons p ps ih =>
    unfold drain
    split
    next =>
      obtain ⟨t, task, heq, hdrops, htask⟩ := ih (s.drop p)
      exact ⟨t, task, heq, (drops_drop s p).trans hdrops, htask⟩
    next => exact ⟨_, _, rfl, drops_drop s p, .inr ⟨ps, rfl⟩⟩
    next => exact ih s

end State

end Coordinator

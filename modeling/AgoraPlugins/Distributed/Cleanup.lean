import AgoraPlugins.Distributed.MutualExclusion

/-!
# Redlock cleans up after itself, as far as it knows

An attempt that returns `False`, to acquire or to renew, has given back the leases of
the nodes that had said they stored or extended them. It does not know of a lease on a
node whose reply was lost, nor of one on a node that dropped out of `_lease_nodes`
because a renewal there was; and it does not repeat a release that fails.

So no lease of a failed attempt is left where, whenever a call raises, the node does not
have the lease the call is about, and a request to acquire is not executed after its
call has raised. Besides, an attempt has to be told from the others by its worker, its
time and its fencing token; and the token has to come out of Lua as it went in, for a
release to recognise the lease.
-/

open Machine

/-! ## What a script leaves on a node -/

namespace Node

/-- The lease under the key was stored by this attempt. -/
def Holds (node : Node) (key : String) (a : Attempt) : Prop :=
  ∃ held, node.leases.lookup key = some held ∧ held.holder = a

instance (node : Node) (key : String) (a : Attempt) : Decidable (node.Holds key a) :=
  decidable_of_iff ((node.leases.lookup key).any (fun held => held.holder = a) = true) (by
    simp [Holds, Option.any_eq_true])

variable {node next : Node} {key k : String} {a caller : Attempt}

/-- What a node holds after a lapse it held before. -/
theorem holds_of_lapse (h : node.lapse key = some next) (ha : next.Holds k a) :
    node.Holds k a := by
  unfold lapse at h
  split at h
  next => cases h
  next held _ =>
    cases h
    obtain ⟨held', hlookup, hholder⟩ := ha
    have hlookup : (node.leases.erase key).lookup k = some held' := hlookup
    by_cases hk : k = key
    · rw [hk, AList.lookup_erase] at hlookup
      cases hlookup
    · rw [AList.lookup_erase_ne hk] at hlookup
      exact ⟨held', hlookup, hholder⟩

/-- **The acquire script** leaves the leases that were there, or its own. -/
theorem holds_of_acquire {pipelineId : String} {runNumber : ℕ}
    (h : (redlockAcquireScript key caller pipelineId runNumber node).2.Holds k a) :
    node.Holds k a ∨ k = key ∧ a = caller
      ∧ (redlockAcquireScript key caller pipelineId runNumber node).1.isAcquired = true := by
  unfold redlockAcquireScript at h ⊢
  split at h
  next => exact .inl h
  next hget =>
    split at h
    next next hset =>
      unfold setNx at hset
      split at hset
      next hnone =>
        cases hset
        obtain ⟨held, hlookup, hholder⟩ := h
        have hlookup : (node.leases.insert key _).lookup k = some held := hlookup
        by_cases hk : k = key
        · rw [hk, AList.lookup_insert] at hlookup
          cases hlookup
          exact .inr ⟨hk, hholder.symm, rfl⟩
        · rw [AList.lookup_insert_ne hk] at hlookup
          exact .inl ⟨held, hlookup, hholder⟩
      next => cases hset
    next => exact .inl h

/-- A script sees the lease of its own attempt as such. -/
theorem isOf_of_holds (h : node.Holds key caller) (htoken : caller.fencingToken < 10 ^ 14) :
    ∃ data, node.get key = some data
      ∧ data.isOf caller.workerId caller.acquiredAt (toString caller.fencingToken) = true := by
  obtain ⟨held, hlookup, rfl⟩ := h
  refine ⟨held.document, by simp [get, hlookup], ?_⟩
  unfold LeaseDocument.isOf Held.document LeaseDocument.encode
  simp [LuaNumber.tostring_tonumber_of_lt htoken]

/-- **The release script** leaves what was there, without the lease of its attempt. -/
theorem holds_of_release (h : (redlockReleaseScript key caller node).2.Holds k a) :
    node.Holds k a ∧ (caller.fencingToken < 10 ^ 14 → ¬ (k = key ∧ a = caller)) := by
  have hdel : (node.del key caller).Holds k a → node.Holds k a ∧ k ≠ key := by
    intro hleft
    unfold del at hleft
    split at hleft
    next hnone =>
      refine ⟨hleft, fun hk => ?_⟩
      obtain ⟨held, hlookup, _⟩ := hleft
      rw [hk, hnone] at hlookup
      cases hlookup
    next held _ =>
      obtain ⟨held', hlookup, hholder⟩ := hleft
      have hlookup : (node.leases.erase key).lookup k = some held' := hlookup
      by_cases hk : k = key
      · rw [hk, AList.lookup_erase] at hlookup
        cases hlookup
      · rw [AList.lookup_erase_ne hk] at hlookup
        exact ⟨⟨held', hlookup, hholder⟩, hk⟩
  unfold redlockReleaseScript onOwnLease at h
  split at h
  next hget =>
    refine ⟨h, fun htoken => ?_⟩
    rintro ⟨rfl, rfl⟩
    obtain ⟨data, hdata, _⟩ := isOf_of_holds h htoken
    rw [hget] at hdata
    cases hdata
  next data hget =>
    split at h
    next hof =>
      obtain ⟨hnode, hk⟩ := hdel h
      exact ⟨hnode, fun _ hsame => hk hsame.1⟩
    next hof =>
      refine ⟨h, fun htoken => ?_⟩
      rintro ⟨rfl, rfl⟩
      obtain ⟨data', hdata, hof'⟩ := isOf_of_holds h htoken
      rw [hget] at hdata
      cases hdata
      exact hof hof'

/-- **The renewal script** leaves what was there. -/
theorem holds_of_renew (h : (redlockRenewScript key caller node).2.Holds k a) :
    node.Holds k a := by
  have hexpire : (node.expire key caller).Holds k a → node.Holds k a := by
    intro hleft
    unfold expire at hleft
    split at hleft
    next => exact hleft
    next => exact hleft
  unfold redlockRenewScript onOwnLease at h
  split at h
  next => exact h
  next =>
    split at h
    next => exact hexpire h
    next => exact h

/-- It extends the lease of its own attempt, and says so. -/
theorem isRenewed_of_holds (h : node.Holds key caller) (htoken : caller.fencingToken < 10 ^ 14) :
    (redlockRenewScript key caller node).1.isRenewed = true := by
  obtain ⟨data, hdata, hof⟩ := isOf_of_holds h htoken
  unfold redlockRenewScript onOwnLease
  rw [hdata]
  dsimp only
  rw [if_pos hof]
  rfl

end Node

namespace Redlock

/-- The node with this index has the lease of the attempt under the key. -/
def HoldsAt (nodes : List Node) (k : ℕ) (key : String) (a : Attempt) : Prop :=
  ∃ node, nodes[k]? = some node ∧ node.Holds key a

variable (keyPrefix : String)

/-- The key of the lease a task is about. -/
def Task.key (t : Task) : String := State.leaseKey keyPrefix t.lease.pipelineId

/-! ## The law -/

/-- **A failed attempt leaves nothing behind**: once it has returned `False`, no node has
its lease. -/
def State.CleansUp (s : State) : Prop :=
  ∀ t ∈ s.tasks, t.method ≠ .release → t.pc = .returned (some false) →
    ∀ node ∈ s.nodes, ¬ node.Holds (t.key keyPrefix) t.attempt

/-- **When a step keeps to the law.** A call raises only where its node does not have the
lease it is about; a request to acquire is not executed once its call has raised; and an
attempt is new, and has a fencing token of no more than fourteen digits. -/
def Orderly (s : State) : Event → Prop
  | .tryAcquire worker pipelineId _ acquiredAt fencingToken =>
    fencingToken < 10 ^ 14 ∧ ∀ w ∈ s.workers[worker]?, ∀ t ∈ s.tasks,
      t.lease.pipelineId = pipelineId → t.attempt ≠ ⟨w.workerId, acquiredAt, fencingToken⟩
  | .executed i j => ∀ t ∈ s.tasks[i]?, ∀ c ∈ t.calls[j]?,
      c.status = .lost false → c.script ≠ .acquire
  | .lost i j => ∀ t ∈ s.tasks[i]?, ∀ c ∈ t.calls[j]?,
      ¬ HoldsAt s.nodes c.index (t.key keyPrefix) t.attempt
  | _ => True

/-! ## The invariant -/

/-- The attempt is under way: it may still be stored by a request of its own. -/
def Task.Acquiring (t : Task) : Prop := t.method = .tryAcquire ∧ t.pc = .gathering

/-- The task is to see to the leases of its attempt. -/
def Task.Liable (t : Task) : Prop :=
  t.method ≠ .release ∧ (t.pc = .gathering ∨ t.pc = .rollingBack ∨ t.pc = .returned (some false))

/-- **The call sees to the lease on its node**: it has been told of it, or will be, or is
on its way to release it. -/
def Call.SeesTo (c : Call) : Method → Pc → Prop
  | .tryAcquire, .gathering => c.Granted
  | .renew, .gathering => c.script = .renew ∧ (c.status = .sent
      ∨ ∃ reply : ScriptReply, reply.isRenewed = true
        ∧ (c.status = .executed reply ∨ c.status = .answered reply))
  | _, .rollingBack => c.script = .release ∧ c.status = .sent
  | _, _ => False

/-- **A task sees to the lease of its attempt on every node** that has it. -/
def Task.Tidy (nodes : List Node) (t : Task) : Prop :=
  t.Liable → ∀ k, HoldsAt nodes k (t.key keyPrefix) t.attempt →
    ∃ c ∈ t.calls, c.index = k ∧ c.SeesTo t.method t.pc

/-- The attempt of a pipeline has been made. -/
def Known (tasks : List Task) (pipelineId : String) (a : Attempt) : Prop :=
  ∃ t ∈ tasks, t.lease.pipelineId = pipelineId ∧ t.attempt = a

/-- It is not under way any more. -/
def Settled (tasks : List Task) (pipelineId : String) (a : Attempt) : Prop :=
  ∀ t ∈ tasks, t.lease.pipelineId = pipelineId → t.attempt = a → ¬ t.Acquiring

/-- The attempt a worker has a lease by. -/
def Worker.attempt (w : Worker) (lease : LeaseState) : Attempt :=
  ⟨w.workerId, lease.acquiredAt, lease.fencingToken⟩

/-- What a worker knows of its leases: they are of attempts that have been made, and it
knows all nodes that have them. -/
def Worker.Knows (tasks : List Task) (nodes : List Node) (w : Worker) : Prop :=
  ∀ p lease, w.leaseTokens.lookup p = some lease → lease.pipelineId = p
    ∧ Known tasks p (w.attempt lease) ∧ Settled tasks p (w.attempt lease)
    ∧ ∃ indices, w.leaseNodes.lookup p = some indices
      ∧ ∀ k, HoldsAt nodes k (State.leaseKey keyPrefix p) (w.attempt lease) → k ∈ indices

/-- **The invariant of a run.** -/
structure State.Tidy (s : State) : Prop where
  tasks : ∀ t ∈ s.tasks, t.Tidy keyPrefix s.nodes
  workers : ∀ w ∈ s.workers, w.Knows keyPrefix s.tasks s.nodes
  /-- a lease that a node has is of an attempt that has been made -/
  known : ∀ k p a, HoldsAt s.nodes k (State.leaseKey keyPrefix p) a → Known s.tasks p a
  /-- an attempt is made once -/
  unique : ∀ (i j : ℕ) (t u : Task), s.tasks[i]? = some t → s.tasks[j]? = some u →
    t.method = .tryAcquire → u.method = .tryAcquire →
    t.lease.pipelineId = u.lease.pipelineId → t.attempt = u.attempt → i = j
  /-- only an attempt under way waits for a request to acquire -/
  waits : ∀ t ∈ s.tasks, ∀ c ∈ t.calls, c.script = .acquire → c.isSettled = false → t.Acquiring
  /-- what a worker has a lease of, it does not acquire any more -/
  settled : ∀ t ∈ s.tasks, t.method ≠ .tryAcquire →
    Settled s.tasks t.lease.pipelineId t.attempt
  shape : ∀ t ∈ s.tasks, t.attempt.fencingToken < 10 ^ 14
    ∧ ∀ w, s.workers[t.worker]? = some w → t.attempt = w.attempt t.lease

variable {keyPrefix}

/-- **Two pipelines have two keys.** -/
theorem leaseKey_inj {p q : String}
    (h : State.leaseKey keyPrefix p = State.leaseKey keyPrefix q) : p = q := by
  unfold State.leaseKey at h
  have hlist := congrArg String.toList h
  rw [String.toList_append, String.toList_append, String.toList_append,
    String.toList_append] at hlist
  exact String.toList_inj.1 (List.append_cancel_left hlist)

/-! ## A task moves on -/

/-- A task that goes on knows what it knew. -/
theorem known_set {tasks : List Task} {i : ℕ} {t t' : Task} (ht : tasks[i]? = some t)
    (hsame : t.Same t') {p : String} {a : Attempt} (h : Known tasks p a) :
    Known (tasks.set i t') p a := by
  obtain ⟨u, hu, hp, ha⟩ := h
  obtain ⟨j, hj⟩ := List.mem_iff_getElem?.1 hu
  have hlt : i < tasks.length := (List.getElem?_eq_some_iff.1 ht).1
  by_cases hji : i = j
  · subst hji
    rw [ht] at hj
    cases hj
    refine ⟨t', List.mem_iff_getElem?.2 ⟨i, List.getElem?_set_self hlt⟩, ?_, ?_⟩
    · rw [hsame.2.1, hp]
    · rw [hsame.2.2.1, ha]
  · exact ⟨u, List.mem_iff_getElem?.2 ⟨j, (List.getElem?_set_ne hji).trans hj⟩, hp, ha⟩

theorem settled_set {tasks : List Task} {i : ℕ} {t t' : Task} (ht : tasks[i]? = some t)
    (hsame : t.Same t') (hacquiring : t'.Acquiring → t.Acquiring) {p : String} {a : Attempt}
    (h : Settled tasks p a) : Settled (tasks.set i t') p a := by
  intro u hu hp ha hu'
  rcases List.mem_or_eq_of_mem_set hu with hu | rfl
  · exact h u hu hp ha hu'
  · refine h t (List.mem_of_getElem? ht) ?_ ?_ (hacquiring hu')
    · rw [← hsame.2.1, hp]
    · rw [← hsame.2.2.1, ha]

/-- **A task moves on, and the nodes with it**: a node comes to have a lease only by the
attempt that the task makes. -/
theorem State.Tidy.replace {s : State} (h : s.Tidy keyPrefix) {i : ℕ} {t t' : Task}
    (ht : s.tasks[i]? = some t) (hsame : t.Same t') (hacquiring : t'.Acquiring → t.Acquiring)
    (hwaits : ∀ c ∈ t'.calls, c.script = .acquire → c.isSettled = false → t'.Acquiring)
    {nodes : List Node}
    (hnodes : ∀ k key a, HoldsAt nodes k key a → HoldsAt s.nodes k key a
      ∨ t.Acquiring ∧ key = t.key keyPrefix ∧ a = t.attempt)
    (htidy : t'.Tidy keyPrefix nodes) :
    State.Tidy keyPrefix { s with nodes := nodes, tasks := s.tasks.set i t' } := by
  have hmem : t ∈ s.tasks := List.mem_of_getElem? ht
  -- what has the lease of another attempt had it before
  have hother : ∀ k p a, HoldsAt nodes k (leaseKey keyPrefix p) a → Settled s.tasks p a →
      HoldsAt s.nodes k (leaseKey keyPrefix p) a := by
    intro k p a hholds hsettled
    refine (hnodes k _ a hholds).resolve_right ?_
    rintro ⟨hacq, hkey, rfl⟩
    exact hsettled t hmem (leaseKey_inj hkey).symm rfl hacq
  refine ⟨fun u hu => ?_, fun w hw => ?_, fun k p a hholds => ?_, ?_, fun u hu => ?_,
    fun u hu hmethod => ?_, fun u hu => ?_⟩
  · obtain ⟨j, hj⟩ := List.mem_iff_getElem?.1 hu
    rcases eq_or_of_getElem?_set hj with ⟨_, rfl⟩ | ⟨hij, hj⟩
    · exact htidy
    · intro hliable k hholds
      refine h.tasks u (List.mem_of_getElem? hj) hliable k ?_
      rcases hnodes k _ _ hholds with hholds | ⟨hacq, hkey, hattempt⟩
      · exact hholds
      · have hp : t.lease.pipelineId = u.lease.pipelineId := (leaseKey_inj hkey).symm
        by_cases hmethod : u.method = .tryAcquire
        · exact absurd (h.unique i j t u ht hj hacq.1 hmethod hp hattempt.symm) hij
        · exact absurd hacq (h.settled u (List.mem_of_getElem? hj) hmethod t hmem hp
            hattempt.symm)
  · intro p lease hlookup
    obtain ⟨hp, hknown, hsettled, indices, hindices, hall⟩ := h.workers w hw p lease hlookup
    exact ⟨hp, known_set ht hsame hknown, settled_set ht hsame hacquiring hsettled, indices,
      hindices, fun k hholds => hall k (hother k p _ hholds hsettled)⟩
  · refine known_set ht hsame ?_
    rcases hnodes k _ _ hholds with hholds | ⟨_, hkey, rfl⟩
    · exact h.known k p a hholds
    · exact ⟨t, hmem, (leaseKey_inj hkey).symm, rfl⟩
  · intro j l u v hu hv hum hvm hp ha
    have hback : ∀ (n : ℕ) (x : Task), (s.tasks.set i t')[n]? = some x →
        ∃ y, s.tasks[n]? = some y ∧ y.Same x := by
      intro n x hx
      rcases eq_or_of_getElem?_set hx with ⟨rfl, rfl⟩ | ⟨_, hx⟩
      · exact ⟨t, ht, hsame⟩
      · exact ⟨x, hx, rfl, rfl, rfl, rfl⟩
    obtain ⟨u', hu', hus⟩ := hback j u hu
    obtain ⟨v', hv', hvs⟩ := hback l v hv
    refine h.unique j l u' v' hu' hv' ?_ ?_ ?_ ?_
    · rw [← hus.1, hum]
    · rw [← hvs.1, hvm]
    · rw [← hus.2.1, ← hvs.2.1, hp]
    · rw [← hus.2.2.1, ← hvs.2.2.1, ha]
  · rcases List.mem_or_eq_of_mem_set hu with hu | rfl
    · exact h.waits u hu
    · exact hwaits
  · rcases List.mem_or_eq_of_mem_set hu with hu | rfl
    · exact settled_set ht hsame hacquiring (h.settled u hu hmethod)
    · refine settled_set ht hsame hacquiring ?_
      rw [hsame.2.1, hsame.2.2.1]
      exact h.settled t hmem (hsame.1 ▸ hmethod)
  · rcases List.mem_or_eq_of_mem_set hu with hu | rfl
    · exact h.shape u hu
    · rw [hsame.2.1, hsame.2.2.1, hsame.2.2.2]
      exact h.shape t hmem

/-! ## A call moves on -/

/-- A node holds what it held, unless it is the one that changes. -/
theorem holdsAt_set {nodes : List Node} {i k : ℕ} {node' : Node} {key : String} {a : Attempt}
    (h : HoldsAt (nodes.set i node') k key a) :
    (i = k ∧ node'.Holds key a) ∨ i ≠ k ∧ HoldsAt nodes k key a := by
  obtain ⟨node, hnode, hholds⟩ := h
  rcases eq_or_of_getElem?_set hnode with ⟨hik, rfl⟩ | ⟨hik, hnode⟩
  · exact .inl ⟨hik, hholds⟩
  · exact .inr ⟨hik, node, hnode, hholds⟩

/-- **A script lets a node hold** only the attempt that acquires. -/
theorem State.holds_of_runScript {t : Task} {script : Script} {node : Node} {k : String}
    {a : Attempt} (h : (runScript keyPrefix t script node).2.Holds k a) :
    node.Holds k a ∨ script = .acquire ∧ k = t.key keyPrefix ∧ a = t.attempt
      ∧ (runScript keyPrefix t script node).1.isAcquired = true := by
  cases script with
  | acquire =>
    rcases Node.holds_of_acquire h with hnode | ⟨hk, ha, hacquired⟩
    · exact .inl hnode
    · exact .inr ⟨rfl, hk, ha, hacquired⟩
  | release => exact .inl (Node.holds_of_release h).1
  | renew => exact .inl (Node.holds_of_renew h)

/-- The calls of a task go on seeing to a node, if the one that moves on does. -/
theorem Task.exists_seesTo_setStatus {t : Task} {j k : ℕ} {c : Call} {status : CallStatus}
    {m : Method} {pc : Pc} (hc : t.calls[j]? = some c)
    (h : ∃ c' ∈ t.calls, c'.index = k ∧ c'.SeesTo m pc)
    (hnew : c.index = k → c.SeesTo m pc → Call.SeesTo { c with status := status } m pc) :
    ∃ c' ∈ (t.setStatus j c status).calls, c'.index = k ∧ c'.SeesTo m pc := by
  obtain ⟨c', hc', hindex, hsees⟩ := h
  obtain ⟨l, hl⟩ := List.mem_iff_getElem?.1 hc'
  have hlt : j < t.calls.length := (List.getElem?_eq_some_iff.1 hc).1
  by_cases hjl : j = l
  · subst hjl
    rw [hc] at hl
    cases hl
    exact ⟨{ c with status := status }, List.mem_iff_getElem?.2 ⟨j, List.getElem?_set_self hlt⟩,
      hindex, hnew hindex hsees⟩
  · exact ⟨c', List.mem_iff_getElem?.2 ⟨l, (List.getElem?_set_ne hjl).trans hl⟩, hindex, hsees⟩

/-- **A call of a task moves on.** -/
theorem State.Tidy.setStatus {s : State} (h : s.Tidy keyPrefix) {i j : ℕ} {t : Task}
    (ht : s.tasks[i]? = some t) {c : Call} (hc : t.calls[j]? = some c) {status : CallStatus}
    (hsettled : c.script = .acquire → c.isSettled = true →
      Call.isSettled { c with status := status } = true) {nodes : List Node}
    (hnodes : ∀ k key a, HoldsAt nodes k key a → HoldsAt s.nodes k key a
      ∨ t.Acquiring ∧ key = t.key keyPrefix ∧ a = t.attempt)
    (htidy : (t.setStatus j c status).Tidy keyPrefix nodes) :
    State.Tidy keyPrefix
      { s with nodes := nodes, tasks := s.tasks.set i (t.setStatus j c status) } := by
  have hmem : t ∈ s.tasks := List.mem_of_getElem? ht
  have hsame : t.Same (t.setStatus j c status) := ⟨rfl, rfl, rfl, rfl⟩
  refine h.replace ht hsame id (fun c' hc' hscript hopen => ?_) hnodes htidy
  rcases List.mem_or_eq_of_mem_set hc' with hc' | rfl
  · exact h.waits t hmem c' hc' hscript hopen
  · refine h.waits t hmem c (List.mem_of_getElem? hc) hscript ?_
    rw [← Bool.not_eq_true]
    intro hset
    rw [hsettled hscript hset] at hopen
    cases hopen

/-- **A request is executed.** What the task sees to by the call afterwards is what the
reply says. -/
theorem State.Tidy.execute {s next : State} (h : s.Tidy keyPrefix) {i j : ℕ} {t : Task}
    (ht : s.tasks[i]? = some t) {c : Call} (hc : t.calls[j]? = some c) {node : Node}
    (hnode : s.nodes[c.index]? = some node)
    (hacquire : c.status = .lost false → c.script ≠ .acquire)
    (hs : s.execute keyPrefix i j t c node = some next) : next.Tidy keyPrefix := by
  have hmem : t ∈ s.tasks := List.mem_of_getElem? ht
  have hcmem : c ∈ t.calls := List.mem_of_getElem? hc
  have htoken : t.attempt.fencingToken < 10 ^ 14 := (h.shape t hmem).1
  let nodes : List Node := s.nodes.set c.index (runScript keyPrefix t c.script node).2
  -- a lease that is there now was there, or is that of the request
  have hholds : ∀ k key a, HoldsAt nodes k key a → HoldsAt s.nodes k key a
      ∨ c.script = .acquire ∧ c.index = k ∧ key = t.key keyPrefix ∧ a = t.attempt
        ∧ (runScript keyPrefix t c.script node).1.isAcquired = true := by
    intro k key a hk
    rcases holdsAt_set hk with ⟨hindex, hleft⟩ | ⟨_, hold⟩
    · rcases State.holds_of_runScript hleft with hold | ⟨hscript, hkey, ha, hacquired⟩
      · exact .inl ⟨node, hindex ▸ hnode, hold⟩
      · exact .inr ⟨hscript, hindex, hkey, ha, hacquired⟩
    · exact .inl hold
  have hreleased : ∀ k, HoldsAt nodes k (t.key keyPrefix) t.attempt → c.index = k →
      c.script ≠ .release := by
    intro k hk hindex hscript
    rcases holdsAt_set hk with ⟨_, hleft⟩ | ⟨hne, _⟩
    · rw [hscript] at hleft
      exact (Node.holds_of_release hleft).2 htoken ⟨rfl, rfl⟩
    · exact hne hindex
  unfold State.execute at hs
  split at hs
  next hstatus =>
    cases hs
    have hopen : c.isSettled = false := by
      unfold Call.isSettled
      rw [hstatus]
    have hacq : c.script = .acquire → t.Acquiring := fun hscript =>
      h.waits t hmem c hcmem hscript hopen
    refine h.setStatus ht hc (fun _ hset => ?_) (fun k key a hk => ?_) (fun hliable k hk => ?_)
    · rw [hopen] at hset
      cases hset
    · exact (hholds k key a hk).imp_right (fun hnew => ⟨hacq hnew.1, hnew.2.2.1, hnew.2.2.2.1⟩)
    · rcases hholds k _ _ hk with hold | ⟨hscript, hindex, _, _, hacquired⟩
      · refine Task.exists_seesTo_setStatus hc (h.tasks t hmem hliable k hold) ?_
        intro hindex hsees
        have hne := hreleased k hk hindex
        obtain ⟨node', hnode', hholdsNode⟩ := hold
        rw [← hindex, hnode] at hnode'
        cases hnode'
        unfold Call.SeesTo at hsees ⊢
        split at hsees
        next => exact absurd hsees (Call.not_granted_of_sent hstatus)
        next =>
          refine ⟨hsees.1, .inr ⟨_, ?_, .inl rfl⟩⟩
          rw [hsees.1]
          exact Node.isRenewed_of_holds hholdsNode htoken
        next => exact absurd hsees.1 hne
        next => exact hsees.elim
      · have hlt : j < t.calls.length := (List.getElem?_eq_some_iff.1 hc).1
        refine ⟨_, List.mem_iff_getElem?.2 ⟨j, List.getElem?_set_self hlt⟩, hindex, ?_⟩
        obtain ⟨hmethod, hpc⟩ := hacq hscript
        show Call.SeesTo _ t.method t.pc
        rw [hmethod, hpc]
        exact ⟨hscript, _, hacquired, .inl rfl⟩
  next hstatus =>
    cases hs
    have hne := hacquire hstatus
    refine h.setStatus ht hc (fun hscript => absurd hscript hne) (fun k key a hk => ?_)
      (fun hliable k hk => ?_)
    · exact .inl ((hholds k key a hk).resolve_right (fun hnew => hne hnew.1))
    · have hold := (hholds k _ _ hk).resolve_right (fun hnew => hne hnew.1)
      refine Task.exists_seesTo_setStatus hc (h.tasks t hmem hliable k hold) ?_
      intro _ hsees
      unfold Call.SeesTo at hsees
      rw [hstatus] at hsees
      split at hsees
      next => exact absurd hsees.1 hne
      next => rcases hsees.2 with hsent | ⟨_, _, hsent | hsent⟩ <;> cases hsent
      next => cases hsees.2
      next => exact hsees.elim
  all_goals cases hs

/-- **A reply comes.** -/
theorem State.Tidy.answer {s next : State} (h : s.Tidy keyPrefix) {i j : ℕ} {t : Task}
    (ht : s.tasks[i]? = some t) {c : Call} (hc : t.calls[j]? = some c)
    (hs : s.answer i j t c = some next) : next.Tidy keyPrefix := by
  have hmem : t ∈ s.tasks := List.mem_of_getElem? ht
  unfold State.answer at hs
  split at hs
  next reply hstatus =>
    cases hs
    refine h.setStatus ht hc (fun _ _ => rfl) (fun k key a hk => .inl hk) (fun hliable k hk => ?_)
    refine Task.exists_seesTo_setStatus hc (h.tasks t hmem hliable k hk) (fun _ hsees => ?_)
    unfold Call.SeesTo at hsees ⊢
    rw [hstatus] at hsees
    split at hsees
    next =>
      obtain ⟨hscript, reply', hacquired, hreply⟩ := hsees
      rw [hstatus] at hreply
      refine ⟨hscript, reply, ?_, .inr rfl⟩
      rcases hreply with hreply | hreply <;> cases hreply
      exact hacquired
    next =>
      obtain ⟨hscript, hsent | ⟨reply', hrenewed, hreply⟩⟩ := hsees
      · cases hsent
      · refine ⟨hscript, .inr ⟨reply, ?_, .inr rfl⟩⟩
        rcases hreply with hreply | hreply <;> cases hreply
        exact hrenewed
    next => cases hsees.2
    next => exact hsees.elim
  all_goals cases hs

/-- **A call raises**, where the node does not have the lease. -/
theorem State.Tidy.lose {s next : State} (h : s.Tidy keyPrefix) {i j : ℕ} {t : Task}
    (ht : s.tasks[i]? = some t) {c : Call} (hc : t.calls[j]? = some c)
    (hgone : ¬ HoldsAt s.nodes c.index (t.key keyPrefix) t.attempt)
    (hs : s.lose i j t c = some next) : next.Tidy keyPrefix := by
  have hmem : t ∈ s.tasks := List.mem_of_getElem? ht
  unfold State.lose at hs
  split at hs
  next => cases hs
  next =>
    cases hs
    refine h.setStatus ht hc (fun _ _ => ?_) (fun k key a hk => .inl hk) (fun hliable k hk => ?_)
    · show Call.isSettled { c with status := c.status.giveUp } = true
      unfold Call.isSettled CallStatus.giveUp
      cases c.status <;> rfl
    · refine Task.exists_seesTo_setStatus hc (h.tasks t hmem hliable k hk) (fun hindex _ => ?_)
      exact absurd (hindex ▸ hk) hgone

/-! ## Tasks begin, and workers keep and forget leases -/

theorem Known.append {tasks : List Task} {p : String} {a : Attempt} (h : Known tasks p a)
    (t : Task) : Known (tasks ++ [t]) p a := by
  obtain ⟨u, hu, hp, ha⟩ := h
  exact ⟨u, List.mem_append_left _ hu, hp, ha⟩

theorem Settled.append {tasks : List Task} {p : String} {a : Attempt} (h : Settled tasks p a)
    {t : Task} (ht : t.lease.pipelineId = p → t.attempt = a → ¬ t.Acquiring) :
    Settled (tasks ++ [t]) p a := by
  intro u hu hp ha
  rcases List.mem_append.1 hu with hu | hu
  · exact h u hu hp ha
  · rw [List.mem_singleton.1 hu] at hp ha ⊢
    exact ht hp ha

/-- **A task begins.** One that acquires is of a new attempt, any other of one that is not
under way. -/
theorem State.Tidy.start {s : State} (h : s.Tidy keyPrefix) {t : Task}
    (htidy : t.Tidy keyPrefix s.nodes)
    (hwaits : ∀ c ∈ t.calls, c.script = .acquire → c.isSettled = false → t.Acquiring)
    (hshape : t.attempt.fencingToken < 10 ^ 14
      ∧ ∀ w, s.workers[t.worker]? = some w → t.attempt = w.attempt t.lease)
    (hnew : t.method = .tryAcquire → ∀ u ∈ s.tasks,
      u.lease.pipelineId = t.lease.pipelineId → u.attempt ≠ t.attempt)
    (hold : t.method ≠ .tryAcquire → Settled s.tasks t.lease.pipelineId t.attempt) :
    (s.start t).Tidy keyPrefix := by
  -- what has been attempted before is not what the task attempts
  have hsettled : ∀ p a, Known s.tasks p a → Settled s.tasks p a →
      Settled (s.tasks ++ [t]) p a := by
    rintro p a ⟨u, hu, hup, hua⟩ hset
    refine hset.append (fun hp ha hacq => hnew hacq.1 u hu ?_ ?_)
    · rw [hup, hp]
    · rw [hua, ha]
  refine ⟨fun u hu => ?_, fun w hw p lease hlookup => ?_, fun k p a hholds => ?_, ?_,
    fun u hu => ?_, fun u hu hmethod => ?_, fun u hu => ?_⟩
  · rcases List.mem_append.1 hu with hu | hu
    · exact h.tasks u hu
    · exact List.mem_singleton.1 hu ▸ htidy
  · obtain ⟨hp, hknown, hset, hindices⟩ := h.workers w hw p lease hlookup
    exact ⟨hp, hknown.append t, hsettled p _ hknown hset, hindices⟩
  · exact (h.known k p a hholds).append t
  · intro i j u v hu hv hum hvm hp ha
    have hsplit : ∀ (n : ℕ) (x : Task), (s.tasks ++ [t])[n]? = some x →
        s.tasks[n]? = some x ∨ n = s.tasks.length ∧ x = t := by
      intro n x hx
      rcases Nat.lt_trichotomy n s.tasks.length with hlt | heq | hgt
      · rw [List.getElem?_append_left hlt] at hx
        exact .inl hx
      · subst heq
        rw [List.getElem?_append_right le_rfl, Nat.sub_self] at hx
        exact .inr ⟨rfl, (Option.some.inj hx).symm⟩
      · rw [List.getElem?_eq_none (by rw [List.length_append, List.length_singleton]; omega)] at hx
        cases hx
    rcases hsplit i u hu with hold' | ⟨hi, hut⟩ <;> rcases hsplit j v hv with hold'' | ⟨hj, hvt⟩
    · exact h.unique i j u v hold' hold'' hum hvm hp ha
    · subst hvt
      exact absurd ha (hnew hvm u (List.mem_of_getElem? hold') hp)
    · subst hut
      exact absurd ha.symm (hnew hum v (List.mem_of_getElem? hold'') hp.symm)
    · rw [hi, hj]
  · rcases List.mem_append.1 hu with hu | hu
    · exact h.waits u hu
    · exact List.mem_singleton.1 hu ▸ hwaits
  · rcases List.mem_append.1 hu with hu | hu
    · exact hsettled _ _ ⟨u, hu, rfl, rfl⟩ (h.settled u hu hmethod)
    · rw [List.mem_singleton.1 hu] at hmethod ⊢
      exact (hold hmethod).append (fun _ _ hacq => hmethod hacq.1)
  · rcases List.mem_append.1 hu with hu | hu
    · exact h.shape u hu
    · exact List.mem_singleton.1 hu ▸ hshape

/-- A worker changes what it knows, and stays who it is. -/
theorem State.Tidy.modify {s : State} (h : s.Tidy keyPrefix) {i : ℕ} {f : Worker → Worker}
    (hid : ∀ w, (f w).workerId = w.workerId)
    (hknows : ∀ w, s.workers[i]? = some w → w.Knows keyPrefix s.tasks s.nodes →
      (f w).Knows keyPrefix s.tasks s.nodes) :
    State.Tidy keyPrefix { s with workers := s.workers.modify i f } := by
  have hworkers : ∀ (j : ℕ) (w : Worker), (s.workers.modify i f)[j]? = some w →
      ∃ w', s.workers[j]? = some w' ∧ (w = w' ∨ i = j ∧ w = f w') := by
    intro j w hw
    rw [List.getElem?_modify] at hw
    obtain ⟨w', hw', rfl⟩ := Option.map_eq_some_iff.1 hw
    refine ⟨w', hw', ?_⟩
    split
    next hij => exact .inr ⟨hij, rfl⟩
    next => exact .inl rfl
  refine ⟨h.tasks, fun w hw => ?_, h.known, h.unique, h.waits, h.settled, fun t ht => ?_⟩
  · obtain ⟨j, hj⟩ := List.mem_iff_getElem?.1 hw
    obtain ⟨w', hw', rfl | ⟨rfl, rfl⟩⟩ := hworkers j w hj
    · exact h.workers w (List.mem_of_getElem? hw')
    · exact hknows w' hw' (h.workers w' (List.mem_of_getElem? hw'))
  · obtain ⟨htoken, hshape⟩ := h.shape t ht
    refine ⟨htoken, fun w hw => ?_⟩
    obtain ⟨w', hw', rfl | ⟨_, rfl⟩⟩ := hworkers _ w hw
    · exact hshape w hw'
    · rw [hshape w' hw']
      unfold Worker.attempt
      rw [hid]

theorem State.Tidy.discardLease {s : State} (h : s.Tidy keyPrefix) (worker : ℕ) (p : String) :
    (s.discardLease worker p).Tidy keyPrefix := by
  refine h.modify (fun _ => rfl) (fun w _ hw q lease hlookup => ?_)
  have hlookup : (w.leaseTokens.erase p).lookup q = some lease := hlookup
  by_cases hq : q = p
  · rw [hq, AList.lookup_erase] at hlookup
    cases hlookup
  · rw [AList.lookup_erase_ne hq] at hlookup
    obtain ⟨hpipeline, hknown, hsettled, indices, hindices, hall⟩ := hw q lease hlookup
    exact ⟨hpipeline, hknown, hsettled, indices, (AList.lookup_erase_ne hq).trans hindices, hall⟩

/-- **A worker keeps a lease** with all the nodes that have it. -/
theorem State.Tidy.keepLease {s : State} (h : s.Tidy keyPrefix) {t : Task} (ht : t ∈ s.tasks)
    (hsettled : Settled s.tasks t.lease.pipelineId t.attempt) {indices : Finset ℕ}
    (hall : ∀ k, HoldsAt s.nodes k (t.key keyPrefix) t.attempt → k ∈ indices) :
    (s.keepLease t.worker t.lease indices).Tidy keyPrefix := by
  refine h.modify (fun _ => rfl) (fun w hworker hw q lease hlookup => ?_)
  have hlookup : (w.leaseTokens.insert t.lease.pipelineId t.lease).lookup q = some lease := hlookup
  by_cases hq : q = t.lease.pipelineId
  · rw [hq, AList.lookup_insert] at hlookup
    cases hlookup
    have hattempt : t.attempt = w.attempt t.lease := (h.shape t ht).2 w hworker
    refine ⟨hq.symm, ⟨t, ht, hq.symm, hattempt⟩, ?_, indices, ?_, fun k hk => hall k ?_⟩
    · show Settled s.tasks q (w.attempt t.lease)
      rw [hq, ← hattempt]
      exact hsettled
    · show (w.leaseNodes.insert t.lease.pipelineId indices).lookup q = some indices
      rw [hq, AList.lookup_insert]
    · have hk : HoldsAt s.nodes k (leaseKey keyPrefix q) (w.attempt t.lease) := hk
      unfold Task.key
      rw [hattempt, ← hq]
      exact hk
  · rw [AList.lookup_insert_ne hq] at hlookup
    obtain ⟨hpipeline, hknown, hset, indices', hindices, hall'⟩ := hw q lease hlookup
    exact ⟨hpipeline, hknown, hset, indices', (AList.lookup_insert_ne hq).trans hindices, hall'⟩

/-! ## The methods -/

/-- **An attempt starts**, which is like none before it. -/
theorem State.Tidy.tryAcquire {s : State} (h : s.Tidy keyPrefix) {worker : ℕ} {w : Worker}
    (hw : s.workers[worker]? = some w) {pipelineId : String} {runNumber : ℕ}
    {acquiredAt : String} {fencingToken : ℕ} (htoken : fencingToken < 10 ^ 14)
    (hnew : ∀ t ∈ s.tasks, t.lease.pipelineId = pipelineId →
      t.attempt ≠ ⟨w.workerId, acquiredAt, fencingToken⟩) :
    (s.tryAcquire worker w pipelineId runNumber acquiredAt fencingToken).Tidy keyPrefix := by
  unfold State.tryAcquire
  refine h.start (fun _ k hholds => ?_) (fun c hc _ _ => ?_)
    ⟨htoken, fun w' hw' => ?_⟩ (fun _ => hnew) (fun hmethod => absurd rfl hmethod)
  · -- no node has a lease of an attempt that is yet to be made
    obtain ⟨u, hu, hp, ha⟩ := h.known k pipelineId _ hholds
    exact absurd ha (hnew u hu hp)
  · refine ⟨rfl, ?_⟩
    dsimp only
    obtain ⟨index, hindex, _⟩ := List.mem_map.1 hc
    rw [List.mem_range] at hindex
    rw [if_neg (by omega)]
  · have hw' : s.workers[worker]? = some w' := hw'
    rw [hw] at hw'
    cases hw'
    rfl

theorem State.Tidy.renew {s : State} (h : s.Tidy keyPrefix) {worker : ℕ} {w : Worker}
    (hw : s.workers[worker]? = some w) (pipelineId : String) :
    (s.renew worker w pipelineId).Tidy keyPrefix := by
  unfold State.renew
  split
  next => exact h
  next lease hlookup =>
    obtain ⟨hp, ⟨u, hu, hup, hua⟩, hsettled, indices, hindices, hall⟩ :=
      h.workers w (List.mem_of_getElem? hw) pipelineId lease hlookup
    refine h.start (fun _ k hholds => ?_) (fun c hc hscript _ => ?_) ⟨?_, fun w' hw' => ?_⟩ nofun
      (fun _ => ?_)
    · have hholds : HoldsAt s.nodes k (leaseKey keyPrefix lease.pipelineId) (w.attempt lease) :=
        hholds
      rw [hp] at hholds
      dsimp only
      rw [hindices]
      exact ⟨⟨.renew, k, .sent⟩,
        List.mem_map.2 ⟨k, (Finset.mem_sort _).2 (hall k hholds), rfl⟩, rfl, rfl, .inl rfl⟩
    · obtain ⟨_, _, rfl⟩ := List.mem_map.1 hc
      cases hscript
    · show (w.attempt lease).fencingToken < 10 ^ 14
      rw [← hua]
      exact (h.shape u hu).1
    · have hw' : s.workers[worker]? = some w' := hw'
      rw [hw] at hw'
      cases hw'
      rfl
    · show Settled s.tasks lease.pipelineId (w.attempt lease)
      rw [hp]
      exact hsettled

theorem State.Tidy.release {s : State} (h : s.Tidy keyPrefix) {worker : ℕ} {w : Worker}
    (hw : s.workers[worker]? = some w) (pipelineId : String) :
    (s.release worker w pipelineId).Tidy keyPrefix := by
  unfold State.release
  split
  next => exact h.discardLease worker pipelineId
  next lease hlookup =>
    obtain ⟨hp, ⟨u, hu, hup, hua⟩, hsettled, _⟩ :=
      h.workers w (List.mem_of_getElem? hw) pipelineId lease hlookup
    have hdiscard := h.discardLease worker pipelineId
    refine hdiscard.start (fun hliable => absurd rfl hliable.1) (fun c hc hscript _ => ?_)
      ⟨?_, fun w' hw' => ?_⟩ nofun (fun _ => ?_)
    · obtain ⟨_, _, rfl⟩ := List.mem_map.1 hc
      cases hscript
    · show (w.attempt lease).fencingToken < 10 ^ 14
      rw [← hua]
      exact (h.shape u hu).1
    · have hw' : (s.workers.modify worker _)[worker]? = some w' := hw'
      rw [List.getElem?_modify_eq, hw] at hw'
      cases hw'
      rfl
    · show Settled s.tasks lease.pipelineId (w.attempt lease)
      rw [hp]
      exact hsettled

/-- A call that is in and sees to a node is one of the repliers. -/
theorem Task.mem_repliers {t : Task} {script : Script} {p : ScriptReply → Bool} {c : Call}
    (hc : c ∈ t.calls) (hscript : c.script = script) {reply : ScriptReply}
    (hstatus : c.status = .answered reply) (hreply : p reply = true) :
    c.index ∈ t.repliers script p := by
  unfold repliers
  rw [List.mem_toFinset, List.mem_map]
  refine ⟨c, List.mem_filter.2 ⟨hc, ?_⟩, rfl⟩
  rw [hstatus]
  simp [hscript, hreply]

/-- A call that is settled and was executed has been answered. -/
theorem Call.answered_of_isSettled {c : Call} (h : c.isSettled = true) {reply : ScriptReply}
    (hstatus : c.status = .executed reply ∨ c.status = .answered reply) :
    c.status = .answered reply := by
  refine hstatus.resolve_left (fun hexecuted => ?_)
  unfold isSettled at h
  rw [hexecuted] at h
  cases h

/-- **The calls of a method are in.** The nodes that have said so are all that have the
lease, and the task keeps it, or sends releases to them. -/
theorem State.Tidy.conclude {s : State} (h : s.Tidy keyPrefix) {i : ℕ} {t : Task}
    (ht : s.tasks[i]? = some t) {indices : Finset ℕ}
    (hall : ∀ k, HoldsAt s.nodes k (t.key keyPrefix) t.attempt → k ∈ indices)
    (hin : ∀ c ∈ t.calls, c.isSettled = true) (valid : Bool) :
    (s.conclude i t indices valid).Tidy keyPrefix := by
  have hmem : t ∈ s.tasks := List.mem_of_getElem? ht
  have hlt : i < s.tasks.length := (List.getElem?_eq_some_iff.1 ht).1
  unfold State.conclude
  split
  next =>
    have hsame : t.Same (t.returns (some true)) := ⟨rfl, rfl, rfl, rfl⟩
    have hset : (s.setTask i (t.returns (some true))).Tidy keyPrefix := by
      refine h.replace ht hsame (fun hacq => nomatch hacq.2) (fun c hc _ hopen => ?_)
        (fun k key a hk => .inl hk) (fun hliable => ?_)
      · rw [hin c hc] at hopen
        cases hopen
      · rcases hliable.2 with hpc | hpc | hpc <;> cases hpc
    have hmem' : t.returns (some true) ∈ (s.setTask i (t.returns (some true))).tasks :=
      List.mem_iff_getElem?.2 ⟨i, List.getElem?_set_self hlt⟩
    refine State.Tidy.keepLease hset hmem' ?_ hall
    -- the attempt has just been made, by this task if it acquires
    intro u hu hp ha hacq
    obtain ⟨j, hj⟩ := List.mem_iff_getElem?.1 hu
    rcases eq_or_of_getElem?_set hj with ⟨_, rfl⟩ | ⟨hij, hj⟩
    · cases hacq.2
    · by_cases hmethod : t.method = .tryAcquire
      · exact hij (h.unique i j t u ht hj hmethod hacq.1 hp.symm ha.symm)
      · exact h.settled t hmem hmethod u (List.mem_of_getElem? hj) hp ha hacq
  next =>
    have hsame : t.Same (t.releaseIndices indices) := ⟨rfl, rfl, rfl, rfl⟩
    refine h.replace ht hsame (fun hacq => nomatch hacq.2) (fun c hc hscript hopen => ?_)
      (fun k key a hk => .inl hk) (fun _ k hk => ?_)
    · rcases List.mem_append.1 hc with hc | hc
      · rw [hin c hc] at hopen
        cases hopen
      · obtain ⟨_, _, rfl⟩ := List.mem_map.1 hc
        cases hscript
    · refine ⟨⟨.release, k, .sent⟩, List.mem_append_right _ ?_, rfl, ?_⟩
      · exact List.mem_map.2 ⟨k, (Finset.mem_sort _).2 (hall k hk), rfl⟩
      · show Call.SeesTo _ t.method .rollingBack
        cases t.method <;> exact ⟨rfl, rfl⟩

/-- A task ends, and has nothing left to see to. -/
theorem State.Tidy.end {s : State} (h : s.Tidy keyPrefix) {i : ℕ} {t t' : Task}
    (ht : s.tasks[i]? = some t) (hsame : t.Same t') (hpc : t'.pc ≠ .gathering)
    (hin : ∀ c ∈ t'.calls, c.isSettled = true)
    (htidy : t'.Liable → ∀ k, ¬ HoldsAt s.nodes k (t.key keyPrefix) t.attempt) :
    (s.setTask i t').Tidy keyPrefix := by
  refine h.replace ht hsame (fun hacq => absurd hacq.2 hpc) (fun c hc _ hopen => ?_)
    (fun k key a hk => .inl hk) (fun hliable k hk => ?_)
  · rw [hin c hc] at hopen
    cases hopen
  · unfold Task.key at hk htidy
    rw [hsame.2.1, hsame.2.2.1] at hk
    exact absurd hk (htidy hliable k)

/-- **A task goes on** when its calls are settled. -/
theorem State.Tidy.resume {s next : State} (h : s.Tidy keyPrefix) {i : ℕ} {t : Task}
    (ht : s.tasks[i]? = some t) (hin : ∀ c ∈ t.calls, c.isSettled = true) {valid : Bool}
    (hs : s.resume i t valid = some next) : next.Tidy keyPrefix := by
  have hmem : t ∈ s.tasks := List.mem_of_getElem? ht
  have htidy := h.tasks t hmem
  -- when all releases are in, no node is waited for that has the lease
  have hreleased : t.method ≠ .release → t.pc = .rollingBack →
      ∀ k, ¬ HoldsAt s.nodes k (t.key keyPrefix) t.attempt := by
    intro hmethod hpc k hk
    obtain ⟨c, hc, _, hsees⟩ := htidy ⟨hmethod, .inr (.inl hpc)⟩ k hk
    have hsent : c.status = .sent := by
      rw [hpc] at hsees
      cases hm : t.method <;> rw [hm] at hsees <;> exact hsees.2
    have hset := hin c hc
    unfold Call.isSettled at hset
    rw [hsent] at hset
    cases hset
  have hends : ∀ value, t.pc = .rollingBack ∨ t.method = .release →
      (s.setTask i (t.returns value)).Tidy keyPrefix := by
    intro value hcase
    refine h.end ht ⟨rfl, rfl, rfl, rfl⟩ nofun hin (fun hliable => ?_)
    rcases hcase with hpc | hmethod
    · exact hreleased hliable.1 hpc
    · exact absurd hmethod hliable.1
  unfold State.resume at hs
  split at hs
  next hpc hmethod =>
    refine Option.some.inj hs ▸ h.conclude ht (fun k hk => ?_) hin valid
    have hliable : t.Liable := by
      refine ⟨?_, .inl hpc⟩
      rw [hmethod]
      exact nofun
    obtain ⟨c, hc, rfl, hsees⟩ := htidy hliable k hk
    rw [hpc, hmethod] at hsees
    obtain ⟨hscript, reply, hacquired, hstatus⟩ := hsees
    exact Task.mem_repliers hc hscript (Call.answered_of_isSettled (hin c hc) hstatus) hacquired
  next hpc hmethod =>
    refine Option.some.inj hs ▸ h.conclude ht (fun k hk => ?_) hin valid
    have hliable : t.Liable := by
      refine ⟨?_, .inl hpc⟩
      rw [hmethod]
      exact nofun
    obtain ⟨c, hc, rfl, hsees⟩ := htidy hliable k hk
    rw [hpc, hmethod] at hsees
    obtain ⟨hscript, hsent | ⟨reply, hrenewed, hstatus⟩⟩ := hsees
    · have hset := hin c hc
      unfold Call.isSettled at hset
      rw [hsent] at hset
      cases hset
    · exact Task.mem_repliers hc hscript (Call.answered_of_isSettled (hin c hc) hstatus) hrenewed
  next hmethod => exact Option.some.inj hs ▸ hends none (.inr hmethod)
  next hpc _ =>
    refine Option.some.inj hs ▸ ?_
    exact (hends (some false) (.inl hpc)).discardLease t.worker t.lease.pipelineId
  next hpc _ => exact Option.some.inj hs ▸ hends (some false) (.inl hpc)
  next => cases hs
  next => cases hs

theorem State.Tidy.raises {s : State} (h : s.Tidy keyPrefix) {i : ℕ} {t : Task}
    (ht : s.tasks[i]? = some t) : (s.setTask i t.raises).Tidy keyPrefix := by
  refine h.end ht ⟨rfl, rfl, rfl, rfl⟩ nofun (fun c hc => ?_) (fun hliable => ?_)
  · obtain ⟨c', _, rfl⟩ := List.mem_map.1 hc
    unfold Call.isSettled CallStatus.giveUp
    cases c'.status <;> rfl
  · rcases hliable.2 with hpc | hpc | hpc <;> cases hpc

theorem State.Tidy.expired {s : State} (h : s.Tidy keyPrefix) {k : ℕ} {key : String}
    {node node' : Node} (hnode : s.nodes[k]? = some node) (hlapse : node.lapse key = some node') :
    State.Tidy keyPrefix { s with nodes := s.nodes.set k node' } := by
  have hnodes : ∀ j key' a, HoldsAt (s.nodes.set k node') j key' a → HoldsAt s.nodes j key' a := by
    intro j key' a hj
    rcases holdsAt_set hj with ⟨hkj, hleft⟩ | ⟨_, hold⟩
    · exact ⟨node, hkj ▸ hnode, Node.holds_of_lapse hlapse hleft⟩
    · exact hold
  refine ⟨fun t ht hliable j hj => h.tasks t ht hliable j (hnodes j _ _ hj),
    fun w hw p lease hlookup => ?_, fun j p a hj => h.known j p a (hnodes j _ _ hj), h.unique,
    h.waits, h.settled, h.shape⟩
  obtain ⟨hp, hknown, hsettled, indices, hindices, hall⟩ := h.workers w hw p lease hlookup
  exact ⟨hp, hknown, hsettled, indices, hindices, fun j hj => hall j (hnodes j _ _ hj)⟩

/-! ## Over a run -/

/-- **One step keeps the invariant**, if it is orderly. -/
theorem State.Tidy.step {s next : State} (h : s.Tidy keyPrefix) {e : Event}
    (he : Orderly keyPrefix s e) (hs : Redlock.step keyPrefix s e = some next) :
    next.Tidy keyPrefix := by
  cases e with
  | tryAcquire worker pipelineId runNumber acquiredAt fencingToken =>
    obtain ⟨w, hw, rfl⟩ := Option.map_eq_some_iff.1 hs
    exact h.tryAcquire hw he.1 (he.2 w hw)
  | renew worker pipelineId =>
    obtain ⟨w, hw, rfl⟩ := Option.map_eq_some_iff.1 hs
    exact h.renew hw pipelineId
  | release worker pipelineId =>
    obtain ⟨w, hw, rfl⟩ := Option.map_eq_some_iff.1 hs
    exact h.release hw pipelineId
  | discarded worker pipelineId => exact Option.some.inj hs ▸ h.discardLease worker pipelineId
  | executed i j =>
    obtain ⟨t, ht, hs⟩ := Option.bind_eq_some_iff.1 hs
    obtain ⟨c, hc, hs⟩ := Option.bind_eq_some_iff.1 hs
    obtain ⟨node, hnode, hs⟩ := Option.bind_eq_some_iff.1 hs
    exact h.execute ht hc hnode (he t ht c hc) hs
  | answered i j =>
    obtain ⟨t, ht, hs⟩ := Option.bind_eq_some_iff.1 hs
    obtain ⟨c, hc, hs⟩ := Option.bind_eq_some_iff.1 hs
    exact h.answer ht hc hs
  | lost i j =>
    obtain ⟨t, ht, hs⟩ := Option.bind_eq_some_iff.1 hs
    obtain ⟨c, hc, hs⟩ := Option.bind_eq_some_iff.1 hs
    exact h.lose ht hc (he t ht c hc) hs
  | resumed i valid =>
    obtain ⟨t, ht, hs⟩ := Option.bind_eq_some_iff.1 hs
    split at hs
    next hin => exact h.resume ht (List.all_eq_true.1 hin) hs
    next => cases hs
  | raised i =>
    obtain ⟨t, ht, hs⟩ := Option.bind_eq_some_iff.1 hs
    split at hs
    next => exact Option.some.inj hs ▸ h.raises ht
    next => cases hs
  | expired k key =>
    obtain ⟨node, hnode, hs⟩ := Option.bind_eq_some_iff.1 hs
    obtain ⟨node', hlapse, rfl⟩ := Option.map_eq_some_iff.1 hs
    exact h.expired hnode hlapse

theorem State.tidy_init (nodes : ℕ) (workerIds : List String) :
    (State.init nodes workerIds).Tidy keyPrefix := by
  refine ⟨nofun, fun w hw p lease hlookup => ?_, fun k p a hholds => ?_, ?_, nofun, nofun, nofun⟩
  · obtain ⟨id, _, rfl⟩ := List.mem_map.1 hw
    cases hlookup
  · obtain ⟨node, hnode, held, hlookup, _⟩ := hholds
    rw [(List.mem_replicate.1 (List.mem_of_getElem? hnode)).2] at hlookup
    cases hlookup
  · intro i j t u ht
    cases ht

/-- **A tidy state cleans up**: what an attempt left on a node is being removed, or known. -/
theorem State.Tidy.cleansUp {s : State} (h : s.Tidy keyPrefix) : s.CleansUp keyPrefix := by
  intro t ht hmethod hpc node hnode hholds
  obtain ⟨k, hk⟩ := List.mem_iff_getElem?.1 hnode
  obtain ⟨c, _, _, hsees⟩ := h.tasks t ht ⟨hmethod, .inr (.inr hpc)⟩ k ⟨node, hk, hholds⟩
  rw [hpc] at hsees
  cases hm : t.method <;> rw [hm] at hsees <;> exact hsees

/-- **A failed attempt leaves nothing behind**, in any orderly run over however many nodes
and workers. -/
theorem allStates_cleansUp (keyPrefix : String) (nodes : ℕ) (workerIds : List String)
    (es : List Event)
    (h : AllSteps (step keyPrefix) (fun s e _ => Orderly keyPrefix s e)
      (State.init nodes workerIds) es) :
    AllStates (step keyPrefix) (State.CleansUp keyPrefix) (State.init nodes workerIds) es :=
  (allStates_of_step (fun _ _ _ ht he hs => ht.step he hs)
    (State.tidy_init nodes workerIds) h).mono (fun _ ht => ht.cleansUp)

instance (nodes : List Node) (k : ℕ) (key : String) (a : Attempt) :
    Decidable (HoldsAt nodes k key a) :=
  decidable_of_iff ((nodes[k]?).any (fun node => node.Holds key a) = true) (by
    simp [HoldsAt, Option.any_eq_true])

instance (keyPrefix : String) (s : State) (e : Event) : Decidable (Orderly keyPrefix s e) := by
  cases e <;> unfold Orderly <;> infer_instance

instance (keyPrefix : String) : DecidablePred (State.CleansUp keyPrefix) := fun s =>
  inferInstanceAs (Decidable (∀ t ∈ s.tasks, _ → _ → _))

/-- An attempt that one node of three has granted releases it there. -/
theorem allStates_cleansUp_released :
    AllStates (step "") (State.CleansUp "") (State.init 3 ["w"])
      [.tryAcquire 0 "p" 1 "t" 1, .executed 0 0, .answered 0 0, .lost 0 1, .lost 0 2,
        .resumed 0 true, .executed 0 3, .answered 0 3, .resumed 0 true] :=
  allStates_cleansUp "" 3 ["w"] _ (by decide +kernel)

/-- **A failed attempt can leave a lease behind.** One node of three stores its lease, and
the reply is lost; the other two raise. The attempt knows of no lease to take back. -/
theorem not_cleansUp_reply_lost :
    ¬ AllStates (step "") (State.CleansUp "") (State.init 3 ["w"])
      [.tryAcquire 0 "p" 1 "t" 1, .executed 0 0, .lost 0 0, .lost 0 1, .lost 0 2,
        .resumed 0 true, .resumed 0 true] := by
  decide +kernel

end Redlock

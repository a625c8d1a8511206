import AgoraPlugins.Distributed.Redlock

/-!
# Redlock excludes

Two attempts that have both returned `True` have each been told by a quorum of nodes
that their lease was stored, and two quorums share a node. On a node one lease can
only be stored when the other is gone, and a lease goes by a release of its own
attempt or by its time to live. So there is a node on which one of the leases gave
way before the other was stored.

What carries this through a run is small. The log of a node only grows, a reply that
a lease was stored has the lease in the log of its node, and a task that has returned
`True` has so many replies. Where the requests and the replies are, what has been
lost, and what was rolled back does not matter to any of it.
-/

open Machine

namespace Redlock

/-! ## The nodes of a run -/

/-- **More has happened on the nodes**, each by itself. -/
def Extends (nodes next : List Node) : Prop :=
  nodes.length = next.length
    ∧ ∀ (k : ℕ) (node : Node), nodes[k]? = some node →
      ∃ node', next[k]? = some node' ∧ node.Extends node'

theorem Extends.refl (nodes : List Node) : Extends nodes nodes :=
  ⟨rfl, fun _ node h => ⟨node, h, .refl node⟩⟩

theorem extends_set {nodes : List Node} {k : ℕ} {node node' : Node}
    (hk : nodes[k]? = some node) (h : node.Extends node') :
    Extends nodes (nodes.set k node') := by
  refine ⟨List.length_set.symm, fun j other hj => ?_⟩
  have hlt : j < nodes.length := (List.getElem?_eq_some_iff.1 hj).1
  by_cases hjk : k = j
  · subst hjk
    rw [hk] at hj
    cases hj
    exact ⟨node', List.getElem?_set_self hlt, h⟩
  · exact ⟨other, by rw [List.getElem?_set_ne hjk, hj], .refl other⟩

theorem Extends.own {nodes next : List Node} (h : Extends nodes next)
    (hown : ∀ node ∈ nodes, ∀ e ∈ node.log, e.Own) :
    ∀ node ∈ next, ∀ e ∈ node.log, e.Own := by
  intro node' hnode'
  obtain ⟨k, hk⟩ := List.mem_iff_getElem?.1 hnode'
  have hlt : k < nodes.length := h.1 ▸ (List.getElem?_eq_some_iff.1 hk).1
  obtain ⟨next', hnext', hext⟩ := h.2 k nodes[k] (List.getElem?_eq_getElem hlt)
  rw [hk] at hnext'
  cases hnext'
  exact hext.own (hown nodes[k] (List.getElem_mem hlt))

/-! ## What a task has been told -/

/-- A call whose reply says that the lease was stored. -/
def Call.Granted (c : Call) : Prop :=
  c.script = .acquire ∧ ∃ reply : ScriptReply, reply.isAcquired = true
    ∧ (c.status = .executed reply ∨ c.status = .answered reply)

/-- The attempt has returned `True`. -/
def Task.Acquired (t : Task) : Prop :=
  t.method = .tryAcquire ∧ t.pc = .returned (some true)

variable (keyPrefix : String)

/-- **A task has been told the truth, and knows it from enough nodes**: a lease that a
reply says was stored is in the log of its node, and an attempt that returned `True`
has a quorum of such replies. -/
structure Task.Sound (nodes : List Node) (t : Task) : Prop where
  granted : ∀ c ∈ t.calls, c.Granted → ∃ node, nodes[c.index]? = some node
    ∧ .stored (State.leaseKey keyPrefix t.lease.pipelineId) t.attempt ∈ node.log
  quorum : t.Acquired → nodes.length / 2 + 1 ≤ t.acquiredIndices.card

variable {keyPrefix}

theorem Task.mem_acquiredIndices {t : Task} {k : ℕ} (h : k ∈ t.acquiredIndices) :
    ∃ c ∈ t.calls, c.index = k ∧ c.Granted := by
  unfold acquiredIndices repliers at h
  rw [List.mem_toFinset, List.mem_map] at h
  obtain ⟨c, hc, hk⟩ := h
  rw [List.mem_filter, Bool.and_eq_true, decide_eq_true_eq] at hc
  obtain ⟨hc, hscript, hstatus⟩ := hc
  refine ⟨c, hc, hk, hscript, ?_⟩
  split at hstatus
  next reply hanswered => exact ⟨reply, hstatus, .inr hanswered⟩
  next => cases hstatus

theorem Task.Sound.extends {nodes next : List Node} {t : Task} (h : t.Sound keyPrefix nodes)
    (hext : Extends nodes next) : t.Sound keyPrefix next := by
  refine ⟨fun c hc hgranted => ?_, fun hacq => hext.1 ▸ h.quorum hacq⟩
  obtain ⟨node, hnode, hmem⟩ := h.granted c hc hgranted
  obtain ⟨node', hnode', hnext⟩ := hext.2 c.index node hnode
  exact ⟨node', hnode', hnext.mem hmem⟩

/-- The nodes an attempt was granted by are nodes. -/
theorem Task.Sound.acquiredIndices_subset {nodes : List Node} {t : Task}
    (h : t.Sound keyPrefix nodes) : t.acquiredIndices ⊆ Finset.range nodes.length := by
  intro k hk
  obtain ⟨c, hc, rfl, hgranted⟩ := t.mem_acquiredIndices hk
  obtain ⟨node, hnode, _⟩ := h.granted c hc hgranted
  exact Finset.mem_range.2 (List.getElem?_eq_some_iff.1 hnode).1

/-- A task that sends requests has been told nothing by them. -/
theorem Call.not_granted_of_sent {c : Call} (h : c.status = .sent) : ¬ c.Granted := by
  rintro ⟨_, reply, _, hstatus⟩
  rw [h] at hstatus
  exact hstatus.elim nofun nofun

theorem Task.status_of_mem_request {script : Script} {indices : List ℕ} {c : Call}
    (h : c ∈ Task.request script indices) : c.status = .sent := by
  unfold Task.request at h
  obtain ⟨index, _, rfl⟩ := List.mem_map.1 h
  rfl

/-- **A fresh task is sound.** -/
theorem Task.sound_of_sent {nodes : List Node} {t : Task}
    (hsent : ∀ c ∈ t.calls, c.status = .sent) (h : ¬ t.Acquired) : t.Sound keyPrefix nodes :=
  ⟨fun c hc hgranted => absurd hgranted (Call.not_granted_of_sent (hsent c hc)),
    fun hacq => absurd hacq h⟩

/-- **The end of a task.** What it was told stays, and it needs a quorum only to
return that it has acquired. -/
theorem Task.Sound.returns {nodes : List Node} {t : Task} (h : t.Sound keyPrefix nodes)
    {value : Option Bool} (hq : t.method = .tryAcquire → value = some true →
      nodes.length / 2 + 1 ≤ t.acquiredIndices.card) : (t.returns value).Sound keyPrefix nodes := by
  refine ⟨h.granted, fun hacq => hq hacq.1 ?_⟩
  have hpc : Pc.returned value = .returned (some true) := hacq.2
  injection hpc

/-- Giving up on a call grants nothing. -/
theorem Call.granted_of_giveUp {c : Call}
    (h : Call.Granted { c with status := c.status.giveUp }) : c.Granted := by
  obtain ⟨hscript, reply, hacquired, hstatus⟩ := h
  refine ⟨hscript, reply, hacquired, .inr ?_⟩
  dsimp only at hstatus
  unfold CallStatus.giveUp at hstatus
  cases hc : c.status with
  | sent => rw [hc] at hstatus; exact hstatus.elim nofun nofun
  | executed reply => rw [hc] at hstatus; exact hstatus.elim nofun nofun
  | answered reply => rw [hc] at hstatus; exact hstatus.elim nofun id
  | lost served => rw [hc] at hstatus; exact hstatus.elim nofun nofun

theorem Task.Sound.raises {nodes : List Node} {t : Task} (h : t.Sound keyPrefix nodes) :
    t.raises.Sound keyPrefix nodes := by
  refine ⟨fun c hc hgranted => ?_, fun hacq => nomatch hacq.2⟩
  obtain ⟨c', hc', rfl⟩ := List.mem_map.1 hc
  exact h.granted c' hc' (Call.granted_of_giveUp hgranted)

theorem Task.Sound.releaseIndices {nodes : List Node} {t : Task} (h : t.Sound keyPrefix nodes)
    (indices : Finset ℕ) : (t.releaseIndices indices).Sound keyPrefix nodes := by
  refine ⟨fun c hc hgranted => ?_, fun hacq => nomatch hacq.2⟩
  rcases List.mem_append.1 hc with hc | hc
  · exact h.granted c hc hgranted
  · exact absurd hgranted (Call.not_granted_of_sent (Task.status_of_mem_request hc))

/-- Answers that have come in stay. -/
theorem Task.acquiredIndices_setStatus {t : Task} {i : ℕ} {c : Call} {status : CallStatus}
    (hc : t.calls[i]? = some c) (h : ∀ reply, c.status ≠ .answered reply) :
    t.acquiredIndices ⊆ (t.setStatus i c status).acquiredIndices := by
  intro k hk
  unfold acquiredIndices repliers at hk ⊢
  rw [List.mem_toFinset, List.mem_map] at hk ⊢
  obtain ⟨c', hc', hindex⟩ := hk
  rw [List.mem_filter] at hc'
  refine ⟨c', List.mem_filter.2 ⟨?_, hc'.2⟩, hindex⟩
  obtain ⟨j, hj⟩ := List.mem_iff_getElem?.1 hc'.1
  have hne : i ≠ j := by
    rintro rfl
    rw [hc] at hj
    cases hj
    have hstatus := (Bool.and_eq_true _ _ ▸ hc'.2).2
    split at hstatus
    next reply hanswered => exact h reply hanswered
    next => cases hstatus
  refine List.mem_iff_getElem?.2 ⟨j, ?_⟩
  show (t.calls.set i _)[j]? = _
  rw [List.getElem?_set_ne hne, hj]

/-- **A call moves on.** It may only turn into one that is granted if the lease is in
the log of the node. -/
theorem Task.Sound.setStatus {nodes : List Node} {t : Task} (h : t.Sound keyPrefix nodes)
    {i : ℕ} {c : Call} {status : CallStatus} (hc : t.calls[i]? = some c)
    (hans : ∀ reply, c.status ≠ .answered reply)
    (hgrant : Call.Granted { c with status := status } → ∃ node, nodes[c.index]? = some node
      ∧ .stored (State.leaseKey keyPrefix t.lease.pipelineId) t.attempt ∈ node.log) :
    (t.setStatus i c status).Sound keyPrefix nodes := by
  refine ⟨fun c' hc' hgranted => ?_, fun hacq => ?_⟩
  · rcases List.mem_or_eq_of_mem_set hc' with hc' | rfl
    · exact h.granted c' hc' hgranted
    · exact hgrant hgranted
  · exact (h.quorum hacq).trans (Finset.card_le_card (t.acquiredIndices_setStatus hc hans))

/-! ## One step -/

variable (keyPrefix) in
/-- **The invariant of a run.** -/
structure State.Sound (s : State) : Prop where
  tasks : ∀ t ∈ s.tasks, t.Sound keyPrefix s.nodes
  own : ∀ node ∈ s.nodes, ∀ e ∈ node.log, e.Own

theorem State.Sound.of_extends {s : State} (h : s.Sound keyPrefix) {nodes : List Node}
    (hext : Extends s.nodes nodes) : State.Sound keyPrefix { s with nodes := nodes } :=
  ⟨fun t ht => (h.tasks t ht).extends hext, hext.own h.own⟩

theorem State.Sound.start {s : State} (h : s.Sound keyPrefix) {t : Task}
    (ht : t.Sound keyPrefix s.nodes) : (s.start t).Sound keyPrefix := by
  refine ⟨fun u hu => ?_, h.own⟩
  rcases List.mem_append.1 hu with hu | hu
  · exact h.tasks u hu
  · exact List.mem_singleton.1 hu ▸ ht

theorem State.Sound.setTask {s : State} (h : s.Sound keyPrefix) {i : ℕ} {t : Task}
    (ht : t.Sound keyPrefix s.nodes) : (s.setTask i t).Sound keyPrefix := by
  refine ⟨fun u hu => ?_, h.own⟩
  rcases List.mem_or_eq_of_mem_set hu with hu | rfl
  · exact h.tasks u hu
  · exact ht

theorem State.Sound.keepLease {s : State} (h : s.Sound keyPrefix) (worker : ℕ)
    (lease : LeaseState) (indices : Finset ℕ) :
    (s.keepLease worker lease indices).Sound keyPrefix := ⟨h.tasks, h.own⟩

theorem State.Sound.discardLease {s : State} (h : s.Sound keyPrefix) (worker : ℕ)
    (pipelineId : String) : (s.discardLease worker pipelineId).Sound keyPrefix :=
  ⟨h.tasks, h.own⟩

theorem State.Sound.tryAcquire {s : State} (h : s.Sound keyPrefix) (worker : ℕ) (w : Worker)
    (pipelineId : String) (runNumber : ℕ) (acquiredAt : String) (fencingToken : ℕ) :
    (s.tryAcquire worker w pipelineId runNumber acquiredAt fencingToken).Sound keyPrefix := by
  refine h.start (Task.sound_of_sent (fun c hc => Task.status_of_mem_request hc) ?_)
  rintro ⟨_, hpc⟩
  dsimp only at hpc
  split at hpc
  · injection hpc with hpc
    injection hpc with hpc
    cases hpc
  · cases hpc

theorem State.Sound.renew {s : State} (h : s.Sound keyPrefix) (worker : ℕ) (w : Worker)
    (pipelineId : String) : (s.renew worker w pipelineId).Sound keyPrefix := by
  unfold State.renew
  split
  next => exact h
  next lease _ =>
    exact h.start (Task.sound_of_sent (fun c hc => Task.status_of_mem_request hc) (nomatch ·.1))

theorem State.Sound.release {s : State} (h : s.Sound keyPrefix) (worker : ℕ) (w : Worker)
    (pipelineId : String) : (s.release worker w pipelineId).Sound keyPrefix := by
  unfold State.release
  split
  next => exact h.discardLease worker pipelineId
  next lease _ =>
    refine (h.discardLease worker pipelineId).start
      (Task.sound_of_sent (fun c hc => Task.status_of_mem_request hc) (nomatch ·.1))

/-- **A conclusion** is sound, the indices of an attempt being those it was granted. -/
theorem State.Sound.conclude {s : State} (h : s.Sound keyPrefix) {i : ℕ} {t : Task}
    (ht : t.Sound keyPrefix s.nodes) {indices : Finset ℕ}
    (hi : t.method = .tryAcquire → indices = t.acquiredIndices) (valid : Bool) :
    (s.conclude i t indices valid).Sound keyPrefix := by
  unfold State.conclude
  split
  next hq =>
    refine (h.keepLease _ _ _).setTask (ht.returns (fun hm _ => ?_))
    rw [← hi hm]
    exact hq.1
  next => exact h.setTask (ht.releaseIndices _)

theorem State.Sound.resume {s next : State} (h : s.Sound keyPrefix) {i : ℕ} {t : Task}
    (ht : t.Sound keyPrefix s.nodes) {valid : Bool} (hs : s.resume i t valid = some next) :
    next.Sound keyPrefix := by
  unfold State.resume at hs
  split at hs
  next => exact Option.some.inj hs ▸ h.conclude ht (fun _ => rfl) valid
  next _ hm => exact Option.some.inj hs ▸ h.conclude ht (fun hm' => nomatch hm ▸ hm') valid
  next => exact Option.some.inj hs ▸ h.setTask (ht.returns (fun _ hv => nomatch hv))
  next =>
    refine Option.some.inj hs ▸ (h.discardLease _ _).setTask (ht.returns (fun _ hv => ?_))
    cases hv
  next =>
    refine Option.some.inj hs ▸ h.setTask (ht.returns (fun _ hv => ?_))
    cases hv
  next => cases hs
  next => cases hs

/-- A script only adds to the log of its node, and where the acquire script says that
it has stored the lease, it has. -/
theorem State.extends_runScript (t : Task) (script : Script) (node : Node) :
    node.Extends (runScript keyPrefix t script node).2
      ∧ (script = .acquire → (runScript keyPrefix t script node).1.isAcquired = true →
        .stored (leaseKey keyPrefix t.lease.pipelineId) t.attempt
          ∈ (runScript keyPrefix t script node).2.log) := by
  cases script with
  | acquire =>
    have h := Node.extends_acquire (State.leaseKey keyPrefix t.lease.pipelineId) t.attempt
      t.lease.pipelineId t.lease.runNumber node
    exact ⟨h.1, fun _ => h.2⟩
  | release => exact ⟨Node.extends_release _ _ node, nofun⟩
  | renew => exact ⟨Node.extends_renew _ _ node, nofun⟩

/-- **A request is executed**, by whoever sent it. -/
theorem State.Sound.execute {s next : State} (h : s.Sound keyPrefix) {i j : ℕ} {t : Task}
    (ht : t.Sound keyPrefix s.nodes) {c : Call} (hc : t.calls[j]? = some c) {node : Node}
    (hnode : s.nodes[c.index]? = some node)
    (hs : s.execute keyPrefix i j t c node = some next) : next.Sound keyPrefix := by
  obtain ⟨hext, hstored⟩ := @State.extends_runScript keyPrefix t c.script node
  have hext' := extends_set hnode hext
  have hlt : c.index < s.nodes.length := (List.getElem?_eq_some_iff.1 hnode).1
  unfold State.execute at hs
  split at hs
  next hstatus =>
    cases hs
    refine State.Sound.setTask (h.of_extends hext') ((ht.extends hext').setStatus hc ?_ ?_)
    · rw [hstatus]
      exact nofun
    · rintro ⟨hscript, reply, hacquired, hreply⟩
      refine ⟨_, List.getElem?_set_self hlt, hstored hscript ?_⟩
      rcases hreply with hreply | hreply <;> cases hreply
      exact hacquired
  next hstatus =>
    cases hs
    refine State.Sound.setTask (h.of_extends hext') ((ht.extends hext').setStatus hc ?_ ?_)
    · rw [hstatus]
      exact nofun
    · rintro ⟨_, _, _, hreply⟩
      exact hreply.elim nofun nofun
  all_goals cases hs

theorem State.Sound.answer {s next : State} (h : s.Sound keyPrefix) {i j : ℕ} {t : Task}
    (ht : t.Sound keyPrefix s.nodes) {c : Call} (hc : t.calls[j]? = some c)
    (hs : s.answer i j t c = some next) : next.Sound keyPrefix := by
  unfold State.answer at hs
  split at hs
  next reply hstatus =>
    cases hs
    refine h.setTask (ht.setStatus hc ?_ ?_)
    · rw [hstatus]
      exact nofun
    · rintro ⟨hscript, reply', hacquired, hreply⟩
      refine ht.granted c (List.mem_of_getElem? hc) ⟨hscript, reply, ?_, .inl hstatus⟩
      rcases hreply with hreply | hreply <;> cases hreply
      exact hacquired
  all_goals cases hs

theorem State.Sound.lose {s next : State} (h : s.Sound keyPrefix) {i j : ℕ} {t : Task}
    (ht : t.Sound keyPrefix s.nodes) {c : Call} (hc : t.calls[j]? = some c)
    (hs : s.lose i j t c = some next) : next.Sound keyPrefix := by
  unfold State.lose at hs
  split at hs
  next => cases hs
  next hsettled =>
    cases hs
    refine h.setTask (ht.setStatus hc ?_ ?_)
    · intro reply hstatus
      unfold Call.isSettled at hsettled
      rw [hstatus] at hsettled
      exact hsettled rfl
    · intro hgranted
      exact ht.granted c (List.mem_of_getElem? hc) (Call.granted_of_giveUp hgranted)

/-- **One step keeps the invariant.** -/
theorem State.Sound.step {s next : State} (h : s.Sound keyPrefix) {e : Event}
    (hs : Redlock.step keyPrefix s e = some next) : next.Sound keyPrefix := by
  cases e with
  | tryAcquire worker pipelineId runNumber acquiredAt fencingToken =>
    obtain ⟨w, _, rfl⟩ := Option.map_eq_some_iff.1 hs
    exact h.tryAcquire worker w pipelineId runNumber acquiredAt fencingToken
  | renew worker pipelineId =>
    obtain ⟨w, _, rfl⟩ := Option.map_eq_some_iff.1 hs
    exact h.renew worker w pipelineId
  | release worker pipelineId =>
    obtain ⟨w, _, rfl⟩ := Option.map_eq_some_iff.1 hs
    exact h.release worker w pipelineId
  | discarded worker pipelineId => exact Option.some.inj hs ▸ h.discardLease worker pipelineId
  | executed i j =>
    obtain ⟨t, ht, hs⟩ := Option.bind_eq_some_iff.1 hs
    obtain ⟨c, hc, hs⟩ := Option.bind_eq_some_iff.1 hs
    obtain ⟨node, hnode, hs⟩ := Option.bind_eq_some_iff.1 hs
    exact h.execute (h.tasks t (List.mem_of_getElem? ht)) hc hnode hs
  | answered i j =>
    obtain ⟨t, ht, hs⟩ := Option.bind_eq_some_iff.1 hs
    obtain ⟨c, hc, hs⟩ := Option.bind_eq_some_iff.1 hs
    exact h.answer (h.tasks t (List.mem_of_getElem? ht)) hc hs
  | lost i j =>
    obtain ⟨t, ht, hs⟩ := Option.bind_eq_some_iff.1 hs
    obtain ⟨c, hc, hs⟩ := Option.bind_eq_some_iff.1 hs
    exact h.lose (h.tasks t (List.mem_of_getElem? ht)) hc hs
  | resumed i valid =>
    obtain ⟨t, ht, hs⟩ := Option.bind_eq_some_iff.1 hs
    split at hs
    next => exact h.resume (h.tasks t (List.mem_of_getElem? ht)) hs
    next => cases hs
  | raised i =>
    obtain ⟨t, ht, hs⟩ := Option.bind_eq_some_iff.1 hs
    split at hs
    next => exact Option.some.inj hs ▸ h.setTask (h.tasks t (List.mem_of_getElem? ht)).raises
    next => cases hs
  | expired k key =>
    obtain ⟨node, hnode, hs⟩ := Option.bind_eq_some_iff.1 hs
    obtain ⟨node', hlapse, rfl⟩ := Option.map_eq_some_iff.1 hs
    exact h.of_extends (extends_set hnode (Node.extends_lapse hlapse))

theorem State.sound_init (nodes : ℕ) (workerIds : List String) :
    (State.init nodes workerIds).Sound keyPrefix := by
  refine ⟨nofun, fun node hnode e he => ?_⟩
  rw [(List.mem_replicate.1 hnode).2] at he
  cases he

/-! ## Mutual exclusion -/

/-- **Two quorums share a node**, and it has stored the leases of both. -/
theorem State.Sound.exists_stored {s : State} (h : s.Sound keyPrefix) {t u : Task}
    (ht : t ∈ s.tasks) (hu : u ∈ s.tasks) (hta : t.Acquired) (hua : u.Acquired) :
    ∃ node ∈ s.nodes,
      .stored (leaseKey keyPrefix t.lease.pipelineId) t.attempt ∈ node.log
        ∧ .stored (leaseKey keyPrefix u.lease.pipelineId) u.attempt ∈ node.log := by
  have htq := (h.tasks t ht).quorum hta
  have huq := (h.tasks u hu).quorum hua
  obtain ⟨k, hk⟩ := Finset.inter_nonempty_of_card_lt_card_add_card
    (h.tasks t ht).acquiredIndices_subset (h.tasks u hu).acquiredIndices_subset
    (by rw [Finset.card_range]; omega)
  obtain ⟨htk, huk⟩ := Finset.mem_inter.1 hk
  obtain ⟨c, hc, rfl, hgranted⟩ := t.mem_acquiredIndices htk
  obtain ⟨d, hd, hindex, hgranted'⟩ := u.mem_acquiredIndices huk
  obtain ⟨node, hnode, hstored⟩ := (h.tasks t ht).granted c hc hgranted
  obtain ⟨node', hnode', hstored'⟩ := (h.tasks u hu).granted d hd hgranted'
  rw [hindex, hnode] at hnode'
  cases hnode'
  exact ⟨node, List.mem_of_getElem? hnode, hstored, hstored'⟩

variable (keyPrefix) in
/-- **Exclusion.** Of two attempts that returned `True` for one pipeline, the earlier
one's lease gave way on some node before the later one's was stored there; and what
is deleted or extended is the lease of the attempt whose script it was. -/
def State.Excludes (s : State) : Prop :=
  (∀ t ∈ s.tasks, ∀ u ∈ s.tasks, t.Acquired → u.Acquired → t.attempt ≠ u.attempt →
    t.lease.pipelineId = u.lease.pipelineId → ∃ node ∈ s.nodes,
      node.GaveWay (leaseKey keyPrefix t.lease.pipelineId) t.attempt u.attempt
        ∨ node.GaveWay (leaseKey keyPrefix t.lease.pipelineId) u.attempt t.attempt)
  ∧ ∀ node ∈ s.nodes, ∀ e ∈ node.log, e.Own

theorem State.Sound.excludes {s : State} (h : s.Sound keyPrefix) : s.Excludes keyPrefix := by
  refine ⟨fun t ht u hu hta hua hne hp => ?_, h.own⟩
  obtain ⟨node, hnode, hstored, hstored'⟩ := h.exists_stored ht hu hta hua
  rw [← hp] at hstored'
  exact ⟨node, hnode, Node.gaveWay_or_gaveWay (h.own node hnode) hne hstored hstored'⟩

/-- **Redlock is mutually exclusive**, over however many nodes and workers, in every
run. -/
theorem allStates_excludes (keyPrefix : String) (nodes : ℕ) (workerIds : List String)
    (es : List Event) :
    AllStates (step keyPrefix) (State.Excludes keyPrefix) (State.init nodes workerIds) es :=
  (allStates_of_invariant (fun _ _ _ h hs => State.Sound.step h hs)
    (State.sound_init nodes workerIds) es).mono (fun _ h => h.excludes)

end Redlock

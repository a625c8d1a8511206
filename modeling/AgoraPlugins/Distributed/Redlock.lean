import Mathlib.Data.Finset.Sort
import AgoraPlugins.Distributed.Leases

/-!
# Redlock

A worker acquires, renews and releases the lease of a pipeline by calling a script
on many nodes at once and waiting until every call has returned or raised. What a
method decides on is the set of nodes that have answered that they did what was
asked: an attempt has succeeded with a quorum of them in time, and otherwise gives
back the leases it knows of.

A call is a request and a reply, each on its own. It may be executed and its reply
be lost, and a request whose caller has given up on it may be executed long after
that. So an attempt may leave leases behind that it does not know of, which only
their time to live removes.

The clock does not appear. Whether the validity of a lease is positive when the
calls are in, and when a lease expires on a node, may come out in any way.
-/

/-- `LeaseState`, without the time of the renewal, which nothing here reads. -/
structure LeaseState where
  pipelineId : String
  runNumber : ℕ
  workerId : String
  fencingToken : ℕ
  acquiredAt : String

namespace Redlock

/-- The scripts that run on a node. -/
inductive Script where
  | acquire
  | release
  | renew
  deriving DecidableEq

/-- **Where a call of a script is.** -/
inductive CallStatus where
  /-- the request is on its way to the node -/
  | sent
  /-- the reply is on its way back -/
  | executed (reply : ScriptReply)
  | answered (reply : ScriptReply)
  /-- the call has raised; its request may still be executed, if it has not been -/
  | lost (executed : Bool)
  deriving DecidableEq

/-- A call of a script on the node with this index. -/
structure Call where
  script : Script
  index : ℕ
  status : CallStatus

/-- The call has returned or raised. -/
def Call.isSettled (c : Call) : Bool :=
  match c.status with
  | .answered _ | .lost _ => true
  | .sent | .executed _ => false

/-- The caller gives up on the call. -/
def CallStatus.giveUp : CallStatus → CallStatus
  | .sent => .lost false
  | .executed _ => .lost true
  | .answered reply => .answered reply
  | .lost served => .lost served

/-- What a worker can call. -/
inductive Method where
  | tryAcquire
  | renew
  | release
  deriving DecidableEq

/-- **Where a method is**: waiting for its calls, waiting for the releases that take
back what it has, or at its end, with the value it returned. -/
inductive Pc where
  | gathering
  | rollingBack
  | returned (value : Option Bool)
  | raised
  deriving DecidableEq

/-- **A method under way**, or at its end. All the calls it has made stay, since a
request may be executed after the method has ended. -/
structure Task where
  worker : ℕ
  method : Method
  /-- the attempt that its scripts name -/
  attempt : Attempt
  lease : LeaseState
  calls : List Call
  pc : Pc

/-- A worker, with `_lease_tokens` and `_lease_nodes`. -/
structure Worker where
  workerId : String
  leaseTokens : Dict String LeaseState
  leaseNodes : Dict String (Finset ℕ)

/-- **The state of the nodes and the workers**, with all calls that are under way. -/
structure State where
  nodes : List Node
  workers : List Worker
  tasks : List Task

/-- So many fresh nodes, and the workers with these ids. -/
def State.init (nodes : ℕ) (workerIds : List String) : State where
  nodes := List.replicate nodes .empty
  workers := workerIds.map (fun id => ⟨id, ∅, ∅⟩)
  tasks := []

/-- What can happen. The first three call a method, which runs to its first await
point; an attempt brings the time and the fencing token it has been given. -/
inductive Event where
  | tryAcquire (worker : ℕ) (pipelineId : String) (runNumber : ℕ) (acquiredAt : String)
      (fencingToken : ℕ)
  | renew (worker : ℕ) (pipelineId : String)
  | release (worker : ℕ) (pipelineId : String)
  /-- the worker forgets a lease: it was not valid any more, or the worker stops -/
  | discarded (worker : ℕ) (pipelineId : String)
  /-- the node executes the request of a call -/
  | executed (task call : ℕ)
  | answered (task call : ℕ)
  | lost (task call : ℕ)
  /-- all calls of the task are in; the flag is whether `validity_s` is positive -/
  | resumed (task : ℕ) (valid : Bool)
  /-- the task is cancelled, or a call has raised a programming error -/
  | raised (task : ℕ)
  /-- the time to live of a lease runs out on a node -/
  | expired (node : ℕ) (key : String)

namespace Task

variable (t : Task)

/-- The calls of a script on some nodes, just sent. -/
def request (script : Script) (indices : List ℕ) : List Call :=
  indices.map (fun index => ⟨script, index, .sent⟩)

/-- The nodes whose reply to the script has come in and is of this kind. -/
def repliers (script : Script) (p : ScriptReply → Bool) : Finset ℕ :=
  ((t.calls.filter (fun c => c.script = script && match c.status with
    | .answered reply => p reply
    | _ => false)).map Call.index).toFinset

/-- `acquired_indices`. -/
def acquiredIndices : Finset ℕ := t.repliers .acquire ScriptReply.isAcquired

/-- `renewed_indices`. -/
def renewedIndices : Finset ℕ := t.repliers .renew ScriptReply.isRenewed

/-- `release_indices`, up to its await point. -/
def releaseIndices (indices : Finset ℕ) : Task :=
  { t with
    calls := t.calls ++ request .release (indices.sort (· ≤ ·))
    pc := .rollingBack }

/-- The task with another status of one of its calls. -/
def setStatus (i : ℕ) (c : Call) (status : CallStatus) : Task :=
  { t with calls := t.calls.set i { c with status := status } }

def returns (value : Option Bool) : Task := { t with pc := .returned value }

/-- The task ends where it is; its requests stay on their way. -/
def raises : Task :=
  { t with
    calls := t.calls.map (fun c => { c with status := c.status.giveUp })
    pc := .raised }

end Task

namespace State

variable (keyPrefix : String) (s : State)

/-- `lease_key`. -/
def leaseKey (pipelineId : String) : String := keyPrefix ++ "lease:" ++ pipelineId

/-- `quorum`. -/
def quorum : ℕ := s.nodes.length / 2 + 1

def start (t : Task) : State := { s with tasks := s.tasks ++ [t] }

def setTask (i : ℕ) (t : Task) : State := { s with tasks := s.tasks.set i t }

/-- `lease_tokens[pipeline_id] = lease` and `_lease_nodes[pipeline_id] = indices`. -/
def keepLease (worker : ℕ) (lease : LeaseState) (indices : Finset ℕ) : State :=
  { s with workers := s.workers.modify worker (fun w =>
      { w with
        leaseTokens := w.leaseTokens.insert lease.pipelineId lease
        leaseNodes := w.leaseNodes.insert lease.pipelineId indices }) }

/-- `discard_lease`. -/
def discardLease (worker : ℕ) (pipelineId : String) : State :=
  { s with workers := s.workers.modify worker (fun w =>
      { w with
        leaseTokens := w.leaseTokens.erase pipelineId
        leaseNodes := w.leaseNodes.erase pipelineId }) }

/-- `try_acquire`, from where it has its fencing token up to its await point. -/
def tryAcquire (worker : ℕ) (w : Worker) (pipelineId : String) (runNumber : ℕ)
    (acquiredAt : String) (fencingToken : ℕ) : State :=
  s.start
    { worker := worker
      method := .tryAcquire
      attempt := ⟨w.workerId, acquiredAt, fencingToken⟩
      lease := ⟨pipelineId, runNumber, w.workerId, fencingToken, acquiredAt⟩
      calls := Task.request .acquire (List.range s.nodes.length)
      pc := if s.nodes.length = 0 then .returned (some false) else .gathering }

/-- `renew`, up to its await point, on the nodes the lease is known to be on. -/
def renew (worker : ℕ) (w : Worker) (pipelineId : String) : State :=
  match w.leaseTokens.lookup pipelineId with
  | none => s
  | some lease => s.start
      { worker := worker
        method := .renew
        attempt := ⟨w.workerId, lease.acquiredAt, lease.fencingToken⟩
        lease := lease
        calls := Task.request .renew (match w.leaseNodes.lookup pipelineId with
          | some indices => indices.sort (· ≤ ·)
          | none => List.range s.nodes.length)
        pc := .gathering }

/-- `release`, which forgets the lease and releases it on all nodes. -/
def release (worker : ℕ) (w : Worker) (pipelineId : String) : State :=
  match w.leaseTokens.lookup pipelineId with
  | none => s.discardLease worker pipelineId
  | some lease => (s.discardLease worker pipelineId).start
      { worker := worker
        method := .release
        attempt := ⟨w.workerId, lease.acquiredAt, lease.fencingToken⟩
        lease := lease
        calls := Task.request .release (List.range s.nodes.length)
        pc := .gathering }

/-- The calls of a method are in: it keeps the lease, if a quorum of nodes has done
what was asked and the lease is still valid, and takes back what it has if not. -/
def conclude (i : ℕ) (t : Task) (indices : Finset ℕ) (valid : Bool) : State :=
  if s.quorum ≤ indices.card ∧ valid = true then
    (s.keepLease t.worker t.lease indices).setTask i (t.returns (some true))
  else s.setTask i (t.releaseIndices indices)

/-- A task goes on when all its calls are in. -/
def resume (i : ℕ) (t : Task) (valid : Bool) : Option State :=
  match t.pc, t.method with
  | .gathering, .tryAcquire => some (s.conclude i t t.acquiredIndices valid)
  | .gathering, .renew => some (s.conclude i t t.renewedIndices valid)
  | .gathering, .release => some (s.setTask i (t.returns none))
  | .rollingBack, .renew =>
    some ((s.discardLease t.worker t.lease.pipelineId).setTask i (t.returns (some false)))
  | .rollingBack, _ => some (s.setTask i (t.returns (some false)))
  | .returned _, _ | .raised, _ => none

/-- What a script does to a node, with the arguments of the task. -/
def runScript (t : Task) : Script → Node → ScriptReply × Node
  | .acquire => redlockAcquireScript (leaseKey keyPrefix t.lease.pipelineId) t.attempt
      t.lease.pipelineId t.lease.runNumber
  | .release => redlockReleaseScript (leaseKey keyPrefix t.lease.pipelineId) t.attempt
  | .renew => redlockRenewScript (leaseKey keyPrefix t.lease.pipelineId) t.attempt

/-- A node executes the request of a call, whose reply nobody may be waiting for. -/
def execute (i j : ℕ) (t : Task) (c : Call) (node : Node) : Option State :=
  match c.status with
  | .sent => some
      { s.setTask i (t.setStatus j c (.executed (runScript keyPrefix t c.script node).1)) with
        nodes := s.nodes.set c.index (runScript keyPrefix t c.script node).2 }
  | .lost false => some
      { s.setTask i (t.setStatus j c (.lost true)) with
        nodes := s.nodes.set c.index (runScript keyPrefix t c.script node).2 }
  | .executed _ | .answered _ | .lost true => none

/-- The reply of a call comes in. -/
def answer (i j : ℕ) (t : Task) (c : Call) : Option State :=
  match c.status with
  | .executed reply => some (s.setTask i (t.setStatus j c (.answered reply)))
  | .sent | .answered _ | .lost _ => none

/-- A call raises, before or after its request has been executed. -/
def lose (i j : ℕ) (t : Task) (c : Call) : Option State :=
  if c.isSettled then none else some (s.setTask i (t.setStatus j c c.status.giveUp))

end State

variable (keyPrefix : String)

/-- **One event.** -/
def step (s : State) : Event → Option State
  | .tryAcquire worker pipelineId runNumber acquiredAt fencingToken =>
    (s.workers[worker]?).map (fun w =>
      s.tryAcquire worker w pipelineId runNumber acquiredAt fencingToken)
  | .renew worker pipelineId =>
    (s.workers[worker]?).map (fun w => s.renew worker w pipelineId)
  | .release worker pipelineId =>
    (s.workers[worker]?).map (fun w => s.release worker w pipelineId)
  | .discarded worker pipelineId => some (s.discardLease worker pipelineId)
  | .executed i j => (s.tasks[i]?).bind (fun t => (t.calls[j]?).bind (fun c =>
      (s.nodes[c.index]?).bind (fun node => s.execute keyPrefix i j t c node)))
  | .answered i j => (s.tasks[i]?).bind (fun t => (t.calls[j]?).bind (fun c => s.answer i j t c))
  | .lost i j => (s.tasks[i]?).bind (fun t => (t.calls[j]?).bind (fun c => s.lose i j t c))
  | .resumed i valid => (s.tasks[i]?).bind (fun t =>
      if t.calls.all Call.isSettled then s.resume i t valid else none)
  | .raised i => (s.tasks[i]?).bind (fun t =>
      if t.pc = .gathering ∨ t.pc = .rollingBack then some (s.setTask i t.raises) else none)
  | .expired k key => (s.nodes[k]?).bind (fun node =>
      (node.lapse key).map (fun node => { s with nodes := s.nodes.set k node }))

/-- Who the task is, and for what. -/
def Task.Same (t t' : Task) : Prop :=
  t'.method = t.method ∧ t'.lease = t.lease ∧ t'.attempt = t.attempt ∧ t'.worker = t.worker

/-- What was at an index of a list with one entry changed. -/
theorem eq_or_of_getElem?_set {α : Type} {l : List α} {i j : ℕ} {a b : α}
    (h : (l.set i a)[j]? = some b) : (i = j ∧ b = a) ∨ i ≠ j ∧ l[j]? = some b := by
  by_cases hij : i = j
  · subst hij
    rw [List.getElem?_set_self'] at h
    obtain ⟨_, _, rfl⟩ := Option.map_eq_some_iff.1 h
    exact .inl ⟨rfl, rfl⟩
  · rw [List.getElem?_set_ne hij] at h
    exact .inr ⟨hij, h⟩

/-- What is at an index of a list with one more entry. -/
theorem eq_or_of_getElem?_concat {α : Type} {l : List α} {j : ℕ} {a b : α}
    (h : (l ++ [a])[j]? = some b) : l[j]? = some b ∨ j = l.length ∧ b = a := by
  rcases lt_or_ge j l.length with hlt | hge
  · rw [List.getElem?_append_left hlt] at h
    exact .inl h
  · rw [List.getElem?_append_right hge] at h
    obtain ⟨hlt, heq⟩ := List.getElem?_eq_some_iff.1 h
    rw [List.length_singleton] at hlt
    refine .inr ⟨by omega, ?_⟩
    rw [← heq]
    exact List.getElem_singleton _

end Redlock

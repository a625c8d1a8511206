import AgoraPlugins.Machine
import Mathlib.Algebra.BigOperators.Group.Finset.Piecewise
import Mathlib.Algebra.Order.BigOperators.Group.Finset
import Mathlib.Algebra.Order.Group.Nat

/-!
# The fallback pool of write connections

Where `psycopg_pool` is not installed a sink with a `pool_size` keeps its write connections
itself: a queue of idle ones, the last one returned on top, and a counter of the open ones. A
call takes an idle connection and checks that it is alive; with none idle it opens one, if the
counter leaves room, and otherwise waits on the queue until one is returned.

Calls are coroutines, and all of this is interleaved at their await points: the check, the
closing of a connection, the opening of one, the wait. A call that waits is woken by the next
connection that is put into the queue, but runs only later, and may find that another call has
taken it. A call may be cancelled wherever it waits.

Two things go wrong. A cancellation is no `Exception`, and one that strikes an opening or a
check leaves the counter as it is, for a connection that is gone. And a connection that is
closed, or fails to open, makes room that nobody is told of who is waiting already. The
accounts are in order in exactly the runs in which neither happens
(`allStates_accounts_iff`).
-/

open Machine

namespace WritePool

/-- **The settings of a pool.** With a `pool_size` of one there is none. -/
structure Config where
  poolSize : ℕ
  poolSize_gt : 1 < poolSize
  healthCheck : Bool := true

/-- **Where a call is** that takes a connection and returns it. -/
inductive Pc where
  | idle
  /-- awaiting the health check of a connection from the queue -/
  | checking (conn : ℕ)
  /-- closing one that is not healthy, to go on after it -/
  | discarding (conn : ℕ)
  | creating
  /-- on the list of getters of the queue -/
  | waiting
  /-- woken by the queue, and not run yet -/
  | woken
  | holding (conn : ℕ)
  /-- closing the connection it has held -/
  | closing (conn : ℕ)
  | ended
  deriving DecidableEq

/-- How many open connections a call stands for. -/
def Pc.connections : Pc → ℕ
  | .checking _ | .discarding _ | .creating | .holding _ | .closing _ => 1
  | .idle | .waiting | .woken | .ended => 0

/-- **A pool and its calls.** Connections are numbered in the order in which they are
opened. -/
structure State (ι : Type) where
  /-- `_write_pool_open_connections` -/
  openConnections : ℕ := 0
  /-- `_write_pool`, the top first -/
  queue : List ℕ := []
  /-- the getters of the queue that have not been woken -/
  getters : List ι := []
  created : ℕ := 0
  pc : ι → Pc := fun _ => .idle

/-- What can happen. -/
inductive Event (ι : Type) where
  | acquire (i : ι)
  | checked (i : ι) (ready : Bool)
  /-- the connection is closed, or closing it has raised -/
  | closed (i : ι)
  | created (i : ι)
  | notCreated (i : ι)
  | resumed (i : ι)
  | timedOut (i : ι)
  /-- the call is done with the connection, or with an exception has it discarded -/
  | release (i : ι) (discard : Bool)
  | cancelled (i : ι)

/-- The call that makes the step. -/
def Event.call {ι : Type} : Event ι → ι
  | .acquire i | .checked i _ | .closed i | .created i | .notCreated i | .resumed i | .timedOut i
  | .release i _ | .cancelled i => i

variable {ι : Type} [DecidableEq ι]

namespace State

variable (cfg : Config) (s : State ι)

def setPc (i : ι) (pc : Pc) : State ι := { s with pc := Function.update s.pc i pc }

/-- A connection from the queue is checked, if that is wanted. -/
def take (i : ι) (conn : ℕ) (queue : List ℕ) : State ι :=
  { s with queue }.setPc i (if cfg.healthCheck then .checking conn else .holding conn)

/-- A call gets on the list of getters. -/
def wait (i : ι) : State ι := { s with getters := s.getters ++ [i] }.setPc i .waiting

/-- **`acquire_write_conn`**, from its loop on and up to the next await point. -/
def acquire (i : ι) : State ι :=
  match s.queue with
  | conn :: queue => s.take cfg i conn queue
  | [] =>
    if s.openConnections < cfg.poolSize then
      { s with openConnections := s.openConnections + 1 }.setPc i .creating
    else s.wait i

/-- `max(0, owner._write_pool_open_connections - 1)`. -/
def decrement : State ι := { s with openConnections := s.openConnections - 1 }

/-- The queue wakes the first of its getters. -/
def wakeUp : State ι :=
  match s.getters with
  | [] => s
  | i :: getters => { s with getters }.setPc i .woken

/-- `put_nowait`, which raises when the queue is full. -/
def put (conn : ℕ) : State ι :=
  if s.queue.length < cfg.poolSize then { s with queue := conn :: s.queue }.wakeUp else s

/-- A woken getter looks into the queue again. -/
def get (i : ι) : State ι :=
  match s.queue with
  | conn :: queue => s.take cfg i conn queue
  | [] => s.wait i

/-- A getter that is woken and does not run wakes the next one, if there is something in the
queue. -/
def passOn : State ι := if s.queue = [] then s else s.wakeUp

end State

variable (cfg : Config)

/-- **One event.** -/
def step (s : State ι) : Event ι → Option (State ι)
  | .acquire i =>
    match s.pc i with
    | .idle => some (s.acquire cfg i)
    | _ => none
  | .checked i ready =>
    match s.pc i with
    | .checking conn => some (s.setPc i (if ready then .holding conn else .discarding conn))
    | _ => none
  | .closed i =>
    match s.pc i with
    | .discarding _ => some (s.decrement.acquire cfg i)
    | .closing _ => some (s.decrement.setPc i .ended)
    | _ => none
  | .created i =>
    match s.pc i with
    | .creating => some ({ s with created := s.created + 1 }.setPc i (.holding s.created))
    | _ => none
  | .notCreated i =>
    match s.pc i with
    | .creating => some (s.decrement.setPc i .ended)
    | _ => none
  | .resumed i =>
    match s.pc i with
    | .woken => some (s.get cfg i)
    | _ => none
  | .timedOut i =>
    match s.pc i with
    | .waiting => some ({ s with getters := s.getters.erase i }.setPc i .ended)
    | .woken => some (s.passOn.setPc i .ended)
    | _ => none
  | .release i discard =>
    match s.pc i with
    | .holding conn =>
      some (if discard then s.setPc i (.closing conn) else (s.put cfg conn).setPc i .ended)
    | _ => none
  | .cancelled i =>
    match s.pc i with
    | .checking _ | .creating => some (s.setPc i .ended)
    | .discarding _ | .closing _ => some (s.decrement.setPc i .ended)
    | .waiting => some ({ s with getters := s.getters.erase i }.setPc i .ended)
    | .woken => some (s.passOn.setPc i .ended)
    | .idle | .holding _ | .ended => none

/-! ## The accounts -/

/-- The connections that calls stand for. -/
def State.inUse [Fintype ι] (s : State ι) : ℕ := ∑ i, (s.pc i).connections

/-- **The accounts are in order**: every open connection is idle, checked out or being
created, there are no more of them than there may be, and nobody waits while there are
fewer. -/
structure Accounts [Fintype ι] (s : State ι) : Prop where
  counted : s.openConnections = s.queue.length + s.inUse
  bounded : s.openConnections ≤ cfg.poolSize
  nobodyWaits : s.openConnections < cfg.poolSize → ∀ i, s.pc i ≠ .waiting

/-- **The accounts stay in order**: a cancellation strikes neither an opening nor a check, and
when the counter goes down, or a woken call finds the queue empty, nobody is waiting with room
in the pool. -/
def InOrder (s : State ι) : Event ι → Prop
  | .closed i => s.getters = [] ∨ s.queue = [] ∧ ∃ conn, s.pc i = .discarding conn
  | .notCreated _ => s.getters = []
  | .resumed _ => s.queue = [] → cfg.poolSize ≤ s.openConnections
  | .cancelled i =>
    match s.pc i with
    | .checking _ | .creating => False
    | .discarding _ | .closing _ => s.getters = []
    | _ => True
  | .acquire _ | .checked _ _ | .created _ | .timedOut _ | .release _ _ => True

/-- The getters are the calls that wait. -/
structure Queued (s : State ι) : Prop where
  nodup : s.getters.Nodup
  mem_getters : ∀ i, i ∈ s.getters ↔ s.pc i = .waiting

/-! ## What a step changes -/

namespace State

@[simp] theorem setPc_openConnections (s : State ι) (i : ι) (pc : Pc) :
    (s.setPc i pc).openConnections = s.openConnections := rfl

@[simp] theorem setPc_queue (s : State ι) (i : ι) (pc : Pc) : (s.setPc i pc).queue = s.queue :=
  rfl

@[simp] theorem setPc_getters (s : State ι) (i : ι) (pc : Pc) :
    (s.setPc i pc).getters = s.getters := rfl

@[simp] theorem setPc_pc_self (s : State ι) (i : ι) (pc : Pc) :
    (s.setPc i pc).pc i = pc := by
  simp [setPc]

theorem setPc_pc_of_ne (s : State ι) {i j : ι} (h : j ≠ i) (pc : Pc) :
    (s.setPc i pc).pc j = s.pc j := by
  simp [setPc, h]

/-- **The first of those who wait** is woken, if there are any. -/
theorem wakeUp_cases (s : State ι) :
    s.getters = [] ∧ s.wakeUp = s
      ∨ ∃ i getters, s.getters = i :: getters
        ∧ s.wakeUp = { s with getters }.setPc i .woken := by
  unfold wakeUp
  cases h : s.getters with
  | nil => exact .inl ⟨rfl, rfl⟩
  | cons i getters => exact .inr ⟨i, getters, rfl, rfl⟩

@[simp] theorem wakeUp_openConnections (s : State ι) :
    s.wakeUp.openConnections = s.openConnections := by
  unfold wakeUp
  split <;> rfl

@[simp] theorem wakeUp_queue (s : State ι) : s.wakeUp.queue = s.queue := by
  unfold wakeUp
  split <;> rfl

@[simp] theorem wakeUp_getters (s : State ι) : s.wakeUp.getters = s.getters.tail := by
  rcases s.wakeUp_cases with ⟨hgetters, h⟩ | ⟨i, getters, hgetters, h⟩
  · rw [h, hgetters]
    rfl
  · rw [h, hgetters]
    rfl

/-- Waking a getter is nothing to a call that is none. -/
theorem wakeUp_pc_of_not_waiting {s : State ι} (hs : Queued s) {i : ι} (hi : s.pc i ≠ .waiting) :
    s.wakeUp.pc i = s.pc i := by
  rcases s.wakeUp_cases with ⟨_, h⟩ | ⟨j, getters, hgetters, h⟩
  · rw [h]
  · rw [h]
    refine setPc_pc_of_ne _ (fun hij => hi ?_) _
    rw [hij, ← hs.mem_getters, hgetters]
    exact List.mem_cons_self

end State

/-! ## The getters -/

namespace Queued

variable {s : State ι} {i : ι} {pc : Pc}

theorem setPc (h : Queued s) (hold : s.pc i ≠ .waiting) (hnew : pc ≠ .waiting) :
    Queued (s.setPc i pc) := by
  refine ⟨h.nodup, fun j => ?_⟩
  by_cases hj : j = i
  · rw [hj, State.setPc_pc_self, State.setPc_getters, h.mem_getters]
    exact iff_of_false hold hnew
  · rw [State.setPc_pc_of_ne _ hj]
    exact h.mem_getters j

theorem wait (h : Queued s) (hold : s.pc i ≠ .waiting) : Queued (s.wait i) := by
  have hnot : i ∉ s.getters := fun hi => hold ((h.mem_getters i).1 hi)
  refine ⟨?_, fun j => ?_⟩
  · show (s.getters ++ [i]).Nodup
    exact h.nodup.append (List.nodup_singleton i) (by simpa using hnot)
  · show j ∈ s.getters ++ [i] ↔ ({ s with getters := s.getters ++ [i] }.setPc i .waiting).pc j = _
    by_cases hj : j = i
    · rw [hj, State.setPc_pc_self]
      simp
    · rw [State.setPc_pc_of_ne _ hj, List.mem_append, List.mem_singleton, h.mem_getters]
      simp [hj]

theorem leave (h : Queued s) (hnew : pc ≠ .waiting) :
    Queued ({ s with getters := s.getters.erase i }.setPc i pc) := by
  refine ⟨h.nodup.erase i, fun j => ?_⟩
  show j ∈ s.getters.erase i ↔ _
  rw [h.nodup.mem_erase_iff, h.mem_getters]
  by_cases hj : j = i
  · rw [hj, State.setPc_pc_self]
    simp [hnew]
  · rw [State.setPc_pc_of_ne _ hj]
    simp [hj]

theorem wakeUp (h : Queued s) : Queued s.wakeUp := by
  rcases s.wakeUp_cases with ⟨_, hsame⟩ | ⟨i, getters, hgetters, hwoken⟩
  · rwa [hsame]
  · rw [hwoken]
    have hnodup := h.nodup
    rw [hgetters, List.nodup_cons] at hnodup
    refine ⟨hnodup.2, fun j => ?_⟩
    show j ∈ getters ↔ _
    by_cases hj : j = i
    · rw [hj, State.setPc_pc_self]
      exact iff_of_false hnodup.1 nofun
    · have hmem := h.mem_getters j
      rw [hgetters, List.mem_cons] at hmem
      rw [State.setPc_pc_of_ne _ hj]
      exact ⟨fun hin => hmem.1 (.inr hin), fun hin => (hmem.2 hin).resolve_left hj⟩

end Queued

/-! ## The operations of the pool -/

section Operations

variable (cfg : Config) (s : State ι) (i : ι)

/-- What a call does that wants a connection. -/
theorem State.acquire_cases :
    (∃ conn queue, s.queue = conn :: queue ∧ s.acquire cfg i = s.take cfg i conn queue)
      ∨ (s.queue = [] ∧ s.openConnections < cfg.poolSize ∧ s.acquire cfg i
        = { s with openConnections := s.openConnections + 1 }.setPc i .creating)
      ∨ s.queue = [] ∧ cfg.poolSize ≤ s.openConnections ∧ s.acquire cfg i = s.wait i := by
  unfold State.acquire
  cases s.queue with
  | cons conn queue => exact .inl ⟨conn, queue, rfl, rfl⟩
  | nil =>
    right
    by_cases hroom : s.openConnections < cfg.poolSize
    · exact .inl ⟨rfl, hroom, if_pos hroom⟩
    · exact .inr ⟨rfl, not_lt.1 hroom, if_neg hroom⟩

/-- What a call does that has been woken. -/
theorem State.get_cases :
    (∃ conn queue, s.queue = conn :: queue ∧ s.get cfg i = s.take cfg i conn queue)
      ∨ s.queue = [] ∧ s.get cfg i = s.wait i := by
  unfold State.get
  cases s.queue with
  | cons conn queue => exact .inl ⟨conn, queue, rfl, rfl⟩
  | nil => exact .inr ⟨rfl, rfl⟩

variable {cfg s i}

theorem queued_take (hs : Queued s) (hi : s.pc i ≠ .waiting) {conn : ℕ} {queue : List ℕ} :
    Queued (s.take cfg i conn queue) := by
  have hqueue : Queued { s with queue } := ⟨hs.nodup, hs.mem_getters⟩
  refine hqueue.setPc hi ?_
  split <;> exact nofun

/-- **`acquire`** takes one, opens one or waits. -/
theorem queued_acquire (hs : Queued s) (hi : s.pc i ≠ .waiting) :
    Queued (s.acquire cfg i) := by
  rcases s.acquire_cases cfg i with
    ⟨conn, queue, _, h⟩ | ⟨_, _, h⟩ | ⟨_, _, h⟩
  · rw [h]
    exact queued_take hs hi
  · rw [h]
    have hcounted : Queued { s with openConnections := s.openConnections + 1 } :=
      ⟨hs.nodup, hs.mem_getters⟩
    exact hcounted.setPc hi nofun
  · rw [h]
    exact hs.wait hi

omit [DecidableEq ι] in
theorem queued_decrement (hs : Queued s) : Queued s.decrement := ⟨hs.nodup, hs.mem_getters⟩

theorem queued_passOn (hs : Queued s) : Queued s.passOn := by
  unfold State.passOn
  split
  · exact hs
  · exact hs.wakeUp

/-- **A connection is put back**, and somebody is woken for it. -/
theorem queued_put (hs : Queued s) (conn : ℕ) : Queued (s.put cfg conn) := by
  unfold State.put
  split
  · have hqueue : Queued { s with queue := conn :: s.queue } := ⟨hs.nodup, hs.mem_getters⟩
    exact hqueue.wakeUp
  · exact hs

/-- Waking does nothing to those who do not wait. -/
theorem State.passOn_pc_of_not_waiting (hs : Queued s) (hi : s.pc i ≠ .waiting) :
    s.passOn.pc i = s.pc i := by
  unfold State.passOn
  split
  · rfl
  · exact State.wakeUp_pc_of_not_waiting hs hi

theorem State.put_pc_of_not_waiting (hs : Queued s) (hi : s.pc i ≠ .waiting) (conn : ℕ) :
    (s.put cfg conn).pc i = s.pc i := by
  unfold State.put
  split
  · have hqueue : Queued { s with queue := conn :: s.queue } := ⟨hs.nodup, hs.mem_getters⟩
    exact State.wakeUp_pc_of_not_waiting hqueue hi
  · rfl

/-- **The getters stay the calls that wait.** -/
theorem queued_step {t : State ι} {e : Event ι} (hs : Queued s) (h : step cfg s e = some t) :
    Queued t := by
  cases e with
  | acquire i =>
    cases hi : s.pc i <;> simp only [step, hi, reduceCtorEq, Option.some.injEq] at h
    subst h
    exact queued_acquire hs (by simp [hi])
  | checked i ready =>
    cases hi : s.pc i <;> simp only [step, hi, reduceCtorEq, Option.some.injEq] at h
    subst h
    refine hs.setPc (by simp [hi]) ?_
    split <;> exact nofun
  | closed i =>
    cases hi : s.pc i <;> simp only [step, hi, reduceCtorEq, Option.some.injEq] at h
    · subst h
      exact queued_acquire (queued_decrement hs) (by simp [State.decrement, hi])
    · subst h
      exact (queued_decrement hs).setPc (by simp [State.decrement, hi]) nofun
  | created i =>
    cases hi : s.pc i <;> simp only [step, hi, reduceCtorEq, Option.some.injEq] at h
    subst h
    have hcounted : Queued { s with created := s.created + 1 } := ⟨hs.nodup, hs.mem_getters⟩
    exact hcounted.setPc (by simp [hi]) nofun
  | notCreated i =>
    cases hi : s.pc i <;> simp only [step, hi, reduceCtorEq, Option.some.injEq] at h
    subst h
    exact (queued_decrement hs).setPc (by simp [State.decrement, hi]) nofun
  | resumed i =>
    cases hi : s.pc i <;> simp only [step, hi, reduceCtorEq, Option.some.injEq] at h
    subst h
    rcases s.get_cases cfg i with ⟨conn, queue, _, h⟩ | ⟨_, h⟩
    · rw [h]
      exact queued_take hs (by simp [hi])
    · rw [h]
      exact hs.wait (by simp [hi])
  | timedOut i =>
    cases hi : s.pc i <;> simp only [step, hi, reduceCtorEq, Option.some.injEq] at h
    · subst h
      exact hs.leave nofun
    · subst h
      have hnot : s.pc i ≠ .waiting := by simp [hi]
      refine (queued_passOn hs).setPc ?_ nofun
      rwa [State.passOn_pc_of_not_waiting hs hnot]
  | release i discard =>
    cases hi : s.pc i <;> simp only [step, hi, reduceCtorEq, Option.some.injEq] at h
    have hnot : s.pc i ≠ .waiting := by simp [hi]
    subst h
    split
    · exact hs.setPc hnot nofun
    · refine (queued_put hs _).setPc ?_ nofun
      rwa [State.put_pc_of_not_waiting hs hnot]
  | cancelled i =>
    cases hi : s.pc i <;> simp only [step, hi, reduceCtorEq, Option.some.injEq] at h <;> subst h
    case checking => exact hs.setPc (by simp [hi]) nofun
    case creating => exact hs.setPc (by simp [hi]) nofun
    case discarding => exact (queued_decrement hs).setPc (by simp [State.decrement, hi]) nofun
    case closing => exact (queued_decrement hs).setPc (by simp [State.decrement, hi]) nofun
    case waiting => exact hs.leave nofun
    case woken =>
      have hnot : s.pc i ≠ .waiting := by simp [hi]
      refine (queued_passOn hs).setPc ?_ nofun
      rwa [State.passOn_pc_of_not_waiting hs hnot]

end Operations

/-! ## What a step does to the other calls -/

section Calls

variable {cfg : Config} {s t : State ι}

/-- `acquire` of one call moves no other. -/
theorem acquire_pc_of_ne {i j : ι} (hj : j ≠ i) : (s.acquire cfg i).pc j = s.pc j := by
  rcases s.acquire_cases cfg i with ⟨conn, queue, _, h⟩ | ⟨_, _, h⟩ | ⟨_, _, h⟩ <;> rw [h] <;>
    exact State.setPc_pc_of_ne _ hj _

theorem get_pc_of_ne {i j : ι} (hj : j ≠ i) : (s.get cfg i).pc j = s.pc j := by
  rcases s.get_cases cfg i with ⟨conn, queue, _, h⟩ | ⟨_, h⟩ <;> rw [h] <;>
    exact State.setPc_pc_of_ne _ hj _

/-- **A step moves no other call**, unless it wakes one that waits. -/
theorem pc_step_of_ne {e : Event ι} (hs : Queued s) (h : step cfg s e = some t) {j : ι}
    (hj : j ≠ e.call) (hwaiting : s.pc j ≠ .waiting) : t.pc j = s.pc j := by
  cases e with
  | acquire i =>
    cases hi : s.pc i <;> simp only [step, hi, reduceCtorEq, Option.some.injEq] at h
    subst h
    exact acquire_pc_of_ne hj
  | checked i ready =>
    cases hi : s.pc i <;> simp only [step, hi, reduceCtorEq, Option.some.injEq] at h
    subst h
    exact State.setPc_pc_of_ne _ hj _
  | closed i =>
    cases hi : s.pc i <;> simp only [step, hi, reduceCtorEq, Option.some.injEq] at h <;> subst h
    · exact acquire_pc_of_ne hj
    · exact State.setPc_pc_of_ne _ hj _
  | created i =>
    cases hi : s.pc i <;> simp only [step, hi, reduceCtorEq, Option.some.injEq] at h
    subst h
    exact State.setPc_pc_of_ne _ hj _
  | notCreated i =>
    cases hi : s.pc i <;> simp only [step, hi, reduceCtorEq, Option.some.injEq] at h
    subst h
    exact State.setPc_pc_of_ne _ hj _
  | resumed i =>
    cases hi : s.pc i <;> simp only [step, hi, reduceCtorEq, Option.some.injEq] at h
    subst h
    exact get_pc_of_ne hj
  | timedOut i =>
    cases hi : s.pc i <;> simp only [step, hi, reduceCtorEq, Option.some.injEq] at h <;> subst h
    · exact State.setPc_pc_of_ne _ hj _
    · exact (State.setPc_pc_of_ne _ hj _).trans (State.passOn_pc_of_not_waiting hs hwaiting)
  | release i discard =>
    cases hi : s.pc i <;> simp only [step, hi, reduceCtorEq, Option.some.injEq] at h
    subst h
    split
    · exact State.setPc_pc_of_ne _ hj _
    · exact (State.setPc_pc_of_ne _ hj _).trans (State.put_pc_of_not_waiting hs hwaiting _)
  | cancelled i =>
    cases hi : s.pc i <;> simp only [step, hi, reduceCtorEq, Option.some.injEq] at h <;> subst h
    case woken =>
      exact (State.setPc_pc_of_ne _ hj _).trans (State.passOn_pc_of_not_waiting hs hwaiting)
    all_goals exact State.setPc_pc_of_ne _ hj _

/-- **What makes a step of its call**, when it has the connection: it gives it back. -/
theorem release_of_holding {e : Event ι} {conn : ℕ} (h : step cfg s e = some t)
    (hi : s.pc e.call = .holding conn) : ∃ discard, e = .release e.call discard := by
  cases e with
  | release i discard => exact ⟨discard, rfl⟩
  | acquire i => simp [step, show s.pc i = _ from hi] at h
  | checked i ready => simp [step, show s.pc i = _ from hi] at h
  | closed i => simp [step, show s.pc i = _ from hi] at h
  | created i => simp [step, show s.pc i = _ from hi] at h
  | notCreated i => simp [step, show s.pc i = _ from hi] at h
  | resumed i => simp [step, show s.pc i = _ from hi] at h
  | timedOut i => simp [step, show s.pc i = _ from hi] at h
  | cancelled i => simp [step, show s.pc i = _ from hi] at h

end Calls

/-! ## Counting -/

section Counting

variable [Fintype ι]

/-- All the connections there are, by the state of the pool. -/
def State.total (s : State ι) : ℕ := s.queue.length + s.inUse

namespace State

variable (s : State ι) {i : ι}

/-- The connections in use, when a call goes on. -/
theorem inUse_setPc (i : ι) (pc : Pc) :
    (s.setPc i pc).inUse + (s.pc i).connections = s.inUse + pc.connections := by
  have hupdate : (fun j => ((s.setPc i pc).pc j).connections)
      = Function.update (fun j => (s.pc j).connections) i pc.connections := by
    funext j
    exact Function.apply_update (fun _ => Pc.connections) s.pc i pc j
  unfold inUse
  rw [hupdate, Finset.sum_update_of_mem (Finset.mem_univ i),
    ← Finset.add_sum_erase _ _ (Finset.mem_univ i), Finset.sdiff_singleton_eq_erase]
  omega

theorem total_setPc (i : ι) (pc : Pc) :
    (s.setPc i pc).total + (s.pc i).connections = s.total + pc.connections := by
  have h := s.inUse_setPc i pc
  unfold total
  rw [setPc_queue]
  omega

omit [DecidableEq ι] in
theorem connections_le_inUse (i : ι) : (s.pc i).connections ≤ s.inUse :=
  Finset.single_le_sum (f := fun j => (s.pc j).connections) (fun _ _ => Nat.zero_le _)
    (Finset.mem_univ i)

/-- Waking neither makes nor loses a connection. -/
theorem total_wakeUp {s : State ι} (hs : Queued s) : s.wakeUp.total = s.total := by
  rcases s.wakeUp_cases with ⟨_, h⟩ | ⟨i, getters, hgetters, h⟩
  · rw [h]
  · have hwaiting : s.pc i = .waiting := by
      rw [← hs.mem_getters, hgetters]
      exact List.mem_cons_self
    have htotal := ({ s with getters } : State ι).total_setPc i .woken
    rw [h]
    rw [show ({ s with getters } : State ι).pc i = .waiting from hwaiting] at htotal
    exact htotal

end State

omit [DecidableEq ι] in
/-- The accounts, by the numbers. -/
theorem accounts_iff {cfg : Config} {s : State ι} (hs : Queued s) :
    Accounts cfg s ↔ s.openConnections = s.total ∧ s.openConnections ≤ cfg.poolSize
      ∧ (s.openConnections < cfg.poolSize → s.getters = []) := by
  have hwaits : (∀ i, s.pc i ≠ .waiting) ↔ s.getters = [] := by
    rw [List.eq_nil_iff_forall_not_mem]
    exact forall_congr' (fun i => not_congr (hs.mem_getters i).symm)
  constructor
  · exact fun h => ⟨h.counted, h.bounded, fun hlt => hwaits.1 (h.nobodyWaits hlt)⟩
  · exact fun h => ⟨h.1, h.2.1, fun hlt => hwaits.2 (h.2.2 hlt)⟩

namespace State

variable (s : State ι) (i : ι)

theorem total_take {conn : ℕ} {queue : List ℕ} (hqueue : s.queue = conn :: queue) :
    (s.take cfg i conn queue).total + (s.pc i).connections = s.total := by
  have hone : (if cfg.healthCheck then Pc.checking conn else .holding conn).connections = 1 := by
    split <;> rfl
  have hset := ({ s with queue } : State ι).total_setPc i
    (if cfg.healthCheck then .checking conn else .holding conn)
  have htaken : ({ s with queue } : State ι).total + 1 = s.total := by
    simp only [total, hqueue, List.length_cons]
    show queue.length + s.inUse + 1 = _
    omega
  rw [hone, htaken] at hset
  exact hset

theorem total_wait : (s.wait i).total + (s.pc i).connections = s.total :=
  ({ s with getters := s.getters ++ [i] } : State ι).total_setPc i .waiting

/-- **Putting one back** makes one more, as long as there is room. -/
theorem total_put {s : State ι} (hs : Queued s) {conn : ℕ} (hroom : s.queue.length < cfg.poolSize) :
    (s.put cfg conn).total = s.total + 1 := by
  have hqueue : Queued { s with queue := conn :: s.queue } := ⟨hs.nodup, hs.mem_getters⟩
  rw [put, if_pos hroom, total_wakeUp hqueue]
  simp only [total, List.length_cons]
  show s.queue.length + 1 + s.inUse = _
  omega

end State

/-! ## The accounts over a step -/

section Step

variable {cfg} {s : State ι} {i : ι}

/-- The account stays right when somebody is woken. -/
theorem accounts_wakeUp (hs : Queued s) (ha : Accounts cfg s) : Accounts cfg s.wakeUp := by
  obtain ⟨hcounted, hbounded, hwaits⟩ := (accounts_iff hs).1 ha
  rw [accounts_iff hs.wakeUp, State.wakeUp_openConnections, State.total_wakeUp hs,
    State.wakeUp_getters]
  exact ⟨hcounted, hbounded, fun hlt => by rw [hwaits hlt, List.tail_nil]⟩

theorem accounts_passOn (hs : Queued s) (ha : Accounts cfg s) : Accounts cfg s.passOn := by
  unfold State.passOn
  split
  · exact ha
  · exact accounts_wakeUp hs ha

/-- A call that goes on elsewhere keeps the accounts if it stands for as many connections as
before. -/
theorem accounts_setPc_iff (hs : Queued s) (ha : Accounts cfg s) (hi : s.pc i ≠ .waiting)
    (pc : Pc) (hpc : pc ≠ .waiting) :
    Accounts cfg (s.setPc i pc) ↔ pc.connections = (s.pc i).connections := by
  obtain ⟨hcounted, hbounded, hwaits⟩ := (accounts_iff hs).1 ha
  have htotal := s.total_setPc i pc
  rw [accounts_iff (hs.setPc hi hpc), State.setPc_openConnections, State.setPc_getters]
  constructor
  · intro h
    omega
  · exact fun h => ⟨by omega, hbounded, hwaits⟩

/-- A woken getter that gives up passes the turn on. -/
theorem accounts_passOn_ended (hs : Queued s) (ha : Accounts cfg s) (hi : s.pc i = .woken) :
    Accounts cfg (s.passOn.setPc i .ended) := by
  have hpc : s.passOn.pc i = .woken := by
    rw [State.passOn_pc_of_not_waiting hs (by simp [hi]), hi]
  rw [accounts_setPc_iff (queued_passOn hs) (accounts_passOn hs ha) (by simp [hpc]) .ended nofun,
    hpc]
  rfl

/-- A getter that gives up changes nothing in the accounts. -/
theorem accounts_leave (hs : Queued s) (ha : Accounts cfg s) (hi : s.pc i = .waiting) :
    Accounts cfg ({ s with getters := s.getters.erase i }.setPc i .ended) := by
  obtain ⟨hcounted, hbounded, hwaits⟩ := (accounts_iff hs).1 ha
  have htotal := ({ s with getters := s.getters.erase i } : State ι).total_setPc i .ended
  rw [show ({ s with getters := s.getters.erase i } : State ι).pc i = .waiting from hi] at htotal
  have hleft : Queued ({ s with getters := s.getters.erase i }.setPc i .ended) := hs.leave nofun
  rw [accounts_iff hleft]
  refine ⟨hcounted.trans htotal.symm, hbounded, fun hlt => ?_⟩
  show s.getters.erase i = []
  rw [hwaits hlt, List.erase_nil]

/-- **A connection that is gone** is given up in the accounts, and leaves them in order when
nobody waits for the room it leaves. -/
theorem accounts_gone_iff (hs : Queued s) (ha : Accounts cfg s) (hi : (s.pc i).connections = 1) :
    Accounts cfg (s.decrement.setPc i .ended) ↔ s.getters = [] := by
  obtain ⟨hcounted, hbounded, hwaits⟩ := (accounts_iff hs).1 ha
  have hnot : s.pc i ≠ .waiting := fun h => by simp [h, Pc.connections] at hi
  have htotal : (s.decrement.setPc i .ended).total + 1 = s.total := by
    have h := s.decrement.total_setPc i .ended
    rw [show s.decrement.pc i = s.pc i from rfl, hi] at h
    exact h
  have hopen : (s.decrement.setPc i .ended).openConnections = s.openConnections - 1 := rfl
  have hgetters : (s.decrement.setPc i .ended).getters = s.getters := rfl
  have hgone : Queued (s.decrement.setPc i .ended) := (queued_decrement hs).setPc hnot nofun
  rw [accounts_iff hgone, hopen, hgetters]
  constructor
  · exact fun h => h.2.2 (by omega)
  · exact fun h => ⟨by omega, by omega, fun _ => h⟩

/-- **A call that wants a connection**, or wants another one in place of one that is gone. -/
theorem accounts_acquire_iff (hs : Queued s) (hi : s.pc i ≠ .waiting)
    (hcounted : s.openConnections + (s.pc i).connections = s.total)
    (hbounded : s.openConnections + (s.pc i).connections ≤ cfg.poolSize)
    (hwaits : s.openConnections + (s.pc i).connections < cfg.poolSize → s.getters = []) :
    Accounts cfg (s.acquire cfg i)
      ↔ s.getters = [] ∨ s.queue = [] ∨ cfg.poolSize ≤ s.openConnections := by
  rw [accounts_iff (queued_acquire hs hi)]
  rcases s.acquire_cases cfg i with ⟨conn, queue, hqueue, h⟩ | ⟨hqueue, hroom, h⟩ |
    ⟨hqueue, hfull, h⟩
  · have htotal := s.total_take cfg i hqueue
    have hopen : (s.take cfg i conn queue).openConnections = s.openConnections := rfl
    have hgetters : (s.take cfg i conn queue).getters = s.getters := rfl
    rw [h, hopen, hgetters, hqueue]
    constructor
    · intro hin
      by_cases hlt : s.openConnections < cfg.poolSize
      · exact .inl (hin.2.2 hlt)
      · exact .inr (.inr (not_lt.1 hlt))
    · rintro (hnone | hempty | hfull)
      · exact ⟨by omega, by omega, fun _ => hnone⟩
      · cases hempty
      · exact ⟨by omega, by omega, fun hlt => absurd hlt (not_lt.2 hfull)⟩
  · have htotal := ({ s with openConnections := s.openConnections + 1 } : State ι).total_setPc i
      .creating
    change _ + (s.pc i).connections = s.total + 1 at htotal
    rw [h, State.setPc_openConnections, State.setPc_getters]
    dsimp only
    refine iff_of_true ⟨?_, ?_, fun hlt => hwaits ?_⟩ (.inr (.inl hqueue))
    · omega
    · exact hroom
    · have hone : (s.pc i).connections ≤ 1 := by cases s.pc i <;> simp [Pc.connections]
      omega
  · have htotal := s.total_wait i
    have hopen : (s.wait i).openConnections = s.openConnections := rfl
    rw [h, hopen]
    exact iff_of_true ⟨by omega, by omega, fun hlt => absurd hlt (not_lt.2 hfull)⟩
      (.inr (.inl hqueue))

/-- A woken call finds a connection, or waits again. -/
theorem accounts_get_iff (hs : Queued s) (ha : Accounts cfg s) (hi : s.pc i = .woken) :
    Accounts cfg (s.get cfg i) ↔ s.queue = [] → cfg.poolSize ≤ s.openConnections := by
  obtain ⟨hcounted, hbounded, hwaits⟩ := (accounts_iff hs).1 ha
  have hnot : s.pc i ≠ .waiting := by simp [hi]
  rcases s.get_cases cfg i with ⟨conn, queue, hqueue, h⟩ | ⟨hqueue, h⟩
  · have htotal := s.total_take cfg i hqueue
    rw [hi] at htotal
    rw [h, accounts_iff (queued_take hs hnot), hqueue]
    exact iff_of_true ⟨hcounted.trans htotal.symm, hbounded, hwaits⟩ nofun
  · have htotal := s.total_wait i
    rw [hi] at htotal
    rw [h, accounts_iff (hs.wait hnot)]
    constructor
    · intro hin _
      by_contra hlt
      have hnone : s.getters ++ [i] = [] := hin.2.2 (not_le.1 hlt)
      simp at hnone
    · intro hfull
      exact ⟨hcounted.trans htotal.symm, hbounded,
        fun hlt => absurd hlt (not_lt.2 (hfull hqueue))⟩

/-- The queue has room for a connection that comes back. -/
theorem accounts_put (hs : Queued s) (ha : Accounts cfg s) {conn : ℕ} (hi : s.pc i = .holding conn) :
    Accounts cfg ((s.put cfg conn).setPc i .ended) := by
  obtain ⟨hcounted, hbounded, hwaits⟩ := (accounts_iff hs).1 ha
  have hnot : s.pc i ≠ .waiting := by simp [hi]
  have hpc : (s.put cfg conn).pc i = .holding conn := by
    rw [State.put_pc_of_not_waiting hs hnot, hi]
  have hone : 1 ≤ s.inUse := by
    have h := s.connections_le_inUse i
    rwa [hi] at h
  have hroom : s.queue.length < cfg.poolSize := by
    have htotal : s.total = s.queue.length + s.inUse := rfl
    omega
  have htotal : ((s.put cfg conn).setPc i .ended).total + 1 = s.total + 1 := by
    have h := (s.put cfg conn).total_setPc i .ended
    rw [hpc, State.total_put cfg hs hroom] at h
    exact h
  have hput : s.put cfg conn = ({ s with queue := conn :: s.queue } : State ι).wakeUp :=
    if_pos hroom
  have hreturned : Queued ((s.put cfg conn).setPc i .ended) :=
    (queued_put hs conn).setPc (by simp [hpc]) nofun
  have hopen : (s.put cfg conn).openConnections = s.openConnections := by
    rw [hput, State.wakeUp_openConnections]
  have hgetters : (s.put cfg conn).getters = s.getters.tail := by
    rw [hput, State.wakeUp_getters]
  rw [accounts_iff hreturned, State.setPc_openConnections, State.setPc_getters, hopen, hgetters]
  exact ⟨by omega, hbounded, fun hlt => by rw [hwaits hlt, List.tail_nil]⟩

/-- **The accounts stay in order just in the steps that keep them.** -/
theorem accounts_step_iff {t : State ι} {e : Event ι} (hs : Queued s) (ha : Accounts cfg s)
    (h : step cfg s e = some t) : Accounts cfg t ↔ InOrder cfg s e := by
  obtain ⟨hcounted, hbounded, hwaits⟩ := (accounts_iff hs).1 ha
  cases e with
  | acquire i =>
    cases hi : s.pc i <;> simp only [step, hi, reduceCtorEq, Option.some.injEq] at h
    subst h
    have hzero : (s.pc i).connections = 0 := by rw [hi]; rfl
    rw [accounts_acquire_iff hs (by simp [hi]) (by omega) (by omega) (fun _ => hwaits (by omega))]
    refine iff_of_true ?_ trivial
    by_cases hlt : s.openConnections < cfg.poolSize
    · exact .inl (hwaits hlt)
    · exact .inr (.inr (not_lt.1 hlt))
  | checked i ready =>
    cases hi : s.pc i <;> simp only [step, hi, reduceCtorEq, Option.some.injEq] at h
    subst h
    rw [accounts_setPc_iff hs ha (by simp [hi]) _ (by cases ready <;> exact nofun), hi]
    exact iff_of_true (by cases ready <;> rfl) trivial
  | closed i =>
    cases hi : s.pc i <;> simp only [step, hi, reduceCtorEq, Option.some.injEq] at h
    -- a connection is closed: whoever waits may open one instead
    case discarding conn =>
      subst h
      have hone : (s.decrement.pc i).connections = 1 := by
        rw [show s.decrement.pc i = s.pc i from rfl, hi]
        rfl
      have hinUse := s.connections_le_inUse i
      rw [hi] at hinUse
      have hopen : s.decrement.openConnections + 1 = s.openConnections := by
        have htotal : s.total = s.queue.length + s.inUse := rfl
        have hle : 1 ≤ s.inUse := hinUse
        have hdecrement : s.decrement.openConnections = s.openConnections - 1 := rfl
        omega
      have hfull : ¬ cfg.poolSize ≤ s.decrement.openConnections := by omega
      have hnot : s.decrement.pc i ≠ .waiting := by
        rw [show s.decrement.pc i = s.pc i from rfl, hi]
        exact nofun
      rw [accounts_acquire_iff (queued_decrement hs) hnot
        (by rw [hone, hopen]; exact hcounted) (by rw [hone, hopen]; exact hbounded)
        (by rw [hone, hopen]; exact hwaits)]
      show s.getters = [] ∨ s.queue = [] ∨ _ ↔ s.getters = [] ∨ s.queue = [] ∧ ∃ conn, _
      simp [hfull, hi]
    case closing conn =>
      subst h
      rw [accounts_gone_iff hs ha (by rw [hi]; rfl)]
      simp [InOrder, hi]
  | created i =>
    cases hi : s.pc i <;> simp only [step, hi, reduceCtorEq, Option.some.injEq] at h
    subst h
    have hopened : Accounts cfg { s with created := s.created + 1 } :=
      ⟨ha.counted, ha.bounded, ha.nobodyWaits⟩
    have hqueued : Queued { s with created := s.created + 1 } := ⟨hs.nodup, hs.mem_getters⟩
    rw [accounts_setPc_iff hqueued hopened (by simp [hi]) (.holding s.created) nofun, hi]
    exact iff_of_true rfl trivial
  | notCreated i =>
    cases hi : s.pc i <;> simp only [step, hi, reduceCtorEq, Option.some.injEq] at h
    subst h
    exact accounts_gone_iff hs ha (by rw [hi]; rfl)
  | resumed i =>
    cases hi : s.pc i <;> simp only [step, hi, reduceCtorEq, Option.some.injEq] at h
    subst h
    exact accounts_get_iff hs ha hi
  | timedOut i =>
    cases hi : s.pc i <;> simp only [step, hi, reduceCtorEq, Option.some.injEq] at h <;> subst h
    case waiting => exact iff_of_true (accounts_leave hs ha hi) trivial
    case woken => exact iff_of_true (accounts_passOn_ended hs ha hi) trivial
  | release i discard =>
    cases hi : s.pc i <;> simp only [step, hi, reduceCtorEq, Option.some.injEq] at h
    case holding conn =>
    cases discard with
    | true =>
      subst h
      rw [if_pos rfl, accounts_setPc_iff hs ha (by simp [hi]) (.closing conn) nofun, hi]
      exact iff_of_true rfl trivial
    | false =>
      subst h
      exact iff_of_true (accounts_put hs ha hi) trivial
  | cancelled i =>
    cases hi : s.pc i <;> simp only [step, hi, reduceCtorEq, Option.some.injEq] at h <;>
      subst h <;> simp only [InOrder, hi]
    case checking | creating =>
      rw [accounts_setPc_iff hs ha (by simp [hi]) .ended nofun, hi]
      simp [Pc.connections]
    case discarding | closing => exact accounts_gone_iff hs ha (by rw [hi]; rfl)
    case waiting => exact iff_of_true (accounts_leave hs ha hi) trivial
    case woken => exact iff_of_true (accounts_passOn_ended hs ha hi) trivial

end Step

/-! ## The runs of a pool -/

/-- **Exactly the runs in which the accounts are kept.** In a run from a fresh pool, whatever
the interleaving of its calls, every state has its connections counted, within the size of the
pool, and nobody waiting while there is room, just when no cancellation strikes the opening or
the check of a connection, no connection is given up while a call waits that nobody wakes, and
no woken call goes back to waiting with room in the pool. -/
theorem allStates_accounts_iff (es : List (Event ι)) :
    AllStates (step cfg) (Accounts cfg) {} es
      ↔ AllSteps (step cfg) (fun s e _ => InOrder cfg s e) {} es := by
  have hqueued : Queued ({} : State ι) := ⟨List.nodup_nil, fun i => by simp⟩
  have haccounts : Accounts cfg ({} : State ι) :=
    (accounts_iff hqueued).2 ⟨by simp [State.total, State.inUse, Pc.connections],
      Nat.zero_le _, fun _ => rfl⟩
  refine allStates_iff_allSteps (I := Queued) (fun s e t hs ha h => ?_) hqueued haccounts es
  exact ⟨queued_step hs h, accounts_step_iff hs ha h⟩

/-- Two write connections. -/
theorem one_lt_two_connections : 1 < 2 := by decide

/-- **Accounts out of order**, with two write connections: a call that is cancelled while its
connection is being opened stays counted; and when one of two calls has its connection
discarded, a third one waits on with room for it. -/
theorem not_allStates_accounts_cancelled :
    ¬ AllStates (step ⟨2, one_lt_two_connections, true⟩)
        (Accounts (ι := Fin 3) ⟨2, one_lt_two_connections, true⟩) {} [.acquire 0, .cancelled 0]
      ∧ ¬ AllStates (step ⟨2, one_lt_two_connections, true⟩)
        (Accounts (ι := Fin 3) ⟨2, one_lt_two_connections, true⟩) {}
        [.acquire 0, .created 0, .acquire 1, .created 1, .acquire 2, .release 0 true,
          .closed 0] := by
  -- the last state of each run already is out of order
  constructor
  · intro h
    have hcounted := (h.last (t := _) rfl).counted
    revert hcounted
    decide
  · intro h
    exact (h.last (t := _) rfl).nobodyWaits (by decide) 2 rfl

end Counting

end WritePool

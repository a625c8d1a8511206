import AgoraPlugins.Postgres.WritePool

/-!
# Whose statements a commit commits

A flush issues its statements on a connection that it has from `write_connection`, either the
sink's single one or one from the fallback pool, and commits them. When a statement or the
commit raises an `Exception`, it rolls back and the connection is closed. A cancellation is no
`Exception`: then nothing is rolled back, and the connection goes back as it is, for the next
call to have, with whatever the server has executed in its open transaction. The sink's single
connection is moreover handed out to every call that asks for it, also while another one is in
the middle of its statements.

Here the calls are those of `WritePool`, over a pool or over the single connection, with the
statements that each connection has executed and not committed. Every commit is of its own
call's statements as long as no call is cancelled between its first statement and its commit,
and the single connection is asked for only while no other call has it (`inv_step`). What this
is to the rows of the buffer is for `FlushHygiene` to say.
-/

open Machine
open WritePool (Pc)

namespace ConnectionHygiene

/-- The connection that a call has. -/
def connection : Pc → Option ℕ
  | .checking conn | .discarding conn | .holding conn | .closing conn => some conn
  | .idle | .creating | .waiting | .woken | .ended => none

/-- **A sink's write connections and its calls.** -/
structure State (ι : Type) where
  pool : WritePool.State ι := {}
  /-- `_conn` -/
  single : Option ℕ := none
  /-- whose statements a connection has executed in its open transaction -/
  pending : ℕ → List ι := fun _ => []
  /-- the last that the call did was a commit, or a rollback -/
  settled : ι → Bool := fun _ => false
  /-- what each commit has committed -/
  commits : List (ι × List ι) := []

/-- What can happen. -/
inductive Event (ι : Type) where
  /-- on the way to a connection, and on the way back -/
  | pool (e : WritePool.Event ι)
  /-- the server has executed a statement, whether or not the call still waits for it -/
  | executed (i : ι)
  /-- the server has given the transaction up, on an error or as the connection broke -/
  | aborted (i : ι)
  | rolledBack (i : ι)
  | committed (i : ι)
  /-- the call leaves `write_connection` after its commit -/
  | finished (i : ι)
  /-- the call leaves it with an exception -/
  | raised (i : ι)
  /-- the call is cancelled while it has the connection -/
  | interrupted (i : ι)

namespace Event

variable {ι : Type}

/-- The call that makes the step. -/
def call : Event ι → ι
  | .pool e => e.call
  | .executed i | .aborted i | .rolledBack i | .committed i | .finished i | .raised i
  | .interrupted i => i

/-- Whether a call begins with it. -/
def begins : Event ι → Bool
  | .pool (.acquire _) => true
  | _ => false

/-- The call that has returned with it. -/
def returns : Event ι → List ι
  | .finished i => [i]
  | _ => []

end Event

variable {ι : Type} [DecidableEq ι]

namespace State

variable (s : State ι)

/-- The connection that `write_connection` has handed out to a call. -/
def held (i : ι) : Option ℕ :=
  match s.pool.pc i with
  | .holding conn => some conn
  | _ => none

def setPc (i : ι) (pc : Pc) : State ι := { s with pool := s.pool.setPc i pc }

/-- What becomes of the transaction of a connection. -/
def setPending (i : ι) (conn : ℕ) (pending : List ι) (settled : Bool) : State ι :=
  { s with
    pending := Function.update s.pending conn pending
    settled := Function.update s.settled i settled }

/-- **`get_conn`** and `release_write_conn` for the single connection. -/
def singleStep : WritePool.Event ι → Option (State ι)
  | .acquire i =>
    match s.pool.pc i with
    | .idle =>
      match s.single with
      | some conn => some (s.setPc i (.holding conn))
      | none => some (s.setPc i .creating)
    | _ => none
  | .created i =>
    match s.pool.pc i with
    | .creating =>
      some { s with
        pool := { s.pool with created := s.pool.created + 1 }.setPc i (.holding s.pool.created)
        single := some s.pool.created }
    | _ => none
  | .notCreated i =>
    match s.pool.pc i with
    | .creating => some (s.setPc i .ended)
    | _ => none
  | .release i discard =>
    match s.pool.pc i with
    | .holding conn =>
      some (s.setPc i (if discard ∧ s.single = some conn then .closing conn else .ended))
    | _ => none
  | .closed i =>
    match s.pool.pc i with
    | .closing _ => some { s.setPc i .ended with single := none }
    | _ => none
  | .cancelled i =>
    match s.pool.pc i with
    | .creating => some (s.setPc i .ended)
    | .closing _ => some { s.setPc i .ended with single := none }
    | _ => none
  | _ => none

end State

/-- With a pool its steps, without one those of the single connection. -/
def connect (cfg : Option WritePool.Config) (s : State ι) (e : WritePool.Event ι) :
    Option (State ι) :=
  match cfg with
  | none => s.singleStep e
  | some cfg => (WritePool.step cfg s.pool e).map (fun pool => { s with pool })

/-- **One event.** A connection goes back discarded only with an exception. -/
def step (cfg : Option WritePool.Config) (s : State ι) : Event ι → Option (State ι)
  | .pool (.release _ _) => none
  | .pool e => connect cfg s e
  | .executed i => (s.held i).map (fun conn => s.setPending i conn (s.pending conn ++ [i]) false)
  | .aborted i => (s.held i).map (fun conn => s.setPending i conn [] false)
  | .rolledBack i => (s.held i).map (fun conn => s.setPending i conn [] true)
  | .committed i =>
    (s.held i).map (fun conn =>
      { s.setPending i conn [] true with commits := s.commits ++ [(i, s.pending conn)] })
  | .finished i => if s.settled i then connect cfg s (.release i false) else none
  | .raised i => connect cfg s (.release i true)
  | .interrupted i => connect cfg s (.release i false)

/-! ## Hygiene -/

/-- **A connection that is handed out carries no other call's statement**, and no commit has
committed another call's. -/
structure Hygienic (s : State ι) : Prop where
  held : ∀ i conn, s.held i = some conn → ∀ j ∈ s.pending conn, j = i
  committed : ∀ commit ∈ s.commits, ∀ j ∈ commit.2, j = commit.1

/-- **No call leaves statements behind**: none is cancelled while its connection has
uncommitted ones, and the single connection is asked for only when no other call has it. -/
def Tidy (cfg : Option WritePool.Config) (s : State ι) : Event ι → Prop
  | .interrupted i => ∀ conn, s.held i = some conn → s.pending conn = []
  | .pool (.acquire _) =>
    cfg = none → ∀ conn, s.single = some conn → ∀ j, connection (s.pool.pc j) ≠ some conn
  | _ => True

instance [Fintype ι] (cfg : Option WritePool.Config) (s : State ι) :
    (e : Event ι) → Decidable (Tidy cfg s e)
  | .interrupted i => inferInstanceAs (Decidable (∀ conn ∈ s.held i, s.pending conn = []))
  | .pool (.acquire _) =>
    match cfg with
    | none => decidable_of_iff (∀ conn ∈ s.single, ∀ j, connection (s.pool.pc j) ≠ some conn)
      ⟨fun h _ => h, fun h => h rfl⟩
    | some _ => .isTrue nofun
  | .pool (.checked _ _) | .pool (.closed _) | .pool (.created _) | .pool (.notCreated _)
  | .pool (.resumed _) | .pool (.timedOut _) | .pool (.release _ _) | .pool (.cancelled _)
  | .executed _ | .aborted _ | .rolledBack _ | .committed _ | .finished _ | .raised _ =>
    .isTrue trivial

/-! ## What a step of the pool does to the connections -/

/-- No call gets a connection that it did not have. -/
structure Kept (s t : WritePool.State ι) : Prop where
  queue : t.queue = s.queue
  created : t.created = s.created
  pc : ∀ j, t.pc j = s.pc j ∨ connection (t.pc j) = none
    ∨ (∃ conn, s.pc j = .checking conn ∧ t.pc j = .holding conn)
    ∨ ∃ conn, connection (s.pc j) = some conn
      ∧ (t.pc j = .discarding conn ∨ t.pc j = .closing conn)

/-- A call gets a connection, from the queue or a new one. -/
structure Given (s t : WritePool.State ι) (i : ι) (conn : ℕ) : Prop where
  source : s.queue = conn :: t.queue ∧ t.created = s.created
    ∨ conn = s.created ∧ t.queue = s.queue ∧ t.created = s.created + 1
  pc : t.pc i = .checking conn ∨ t.pc i = .holding conn
  others : ∀ j, j ≠ i → t.pc j = s.pc j

namespace Kept

variable {s t u : WritePool.State ι}

omit [DecidableEq ι] in
theorem refl (s : WritePool.State ι) : Kept s s := ⟨rfl, rfl, fun _ => .inl rfl⟩

/-- A call is where it was, or goes on without a connection. -/
theorem setPc_none (h : Kept s t) (i : ι) {pc : Pc} (hpc : connection pc = none) :
    Kept s (t.setPc i pc) := by
  refine ⟨h.queue, h.created, fun j => ?_⟩
  by_cases hj : j = i
  · rw [hj, WritePool.State.setPc_pc_self]
    exact .inr (.inl hpc)
  · rw [WritePool.State.setPc_pc_of_ne _ hj]
    exact h.pc j

theorem wakeUp (h : Kept s t) : Kept s t.wakeUp := by
  rcases t.wakeUp_cases with ⟨_, hsame⟩ | ⟨i, getters, _, hwoken⟩
  · rwa [hsame]
  · rw [hwoken]
    have hgetters : Kept s { t with getters } := ⟨h.queue, h.created, h.pc⟩
    exact hgetters.setPc_none i rfl

theorem passOn (h : Kept s t) : Kept s t.passOn := by
  unfold WritePool.State.passOn
  split
  · exact h
  · exact h.wakeUp

theorem wait (h : Kept s t) (i : ι) : Kept s (t.wait i) := by
  have hgetters : Kept s { t with getters := t.getters ++ [i] } := ⟨h.queue, h.created, h.pc⟩
  exact hgetters.setPc_none i rfl

end Kept

omit [DecidableEq ι] in
theorem kept_decrement (s : WritePool.State ι) : Kept s s.decrement :=
  ⟨rfl, rfl, fun _ => .inl rfl⟩

theorem given_take (cfg : WritePool.Config) {s : WritePool.State ι} {conn : ℕ} {queue : List ℕ}
    (h : s.queue = conn :: queue) (i : ι) : Given s (s.take cfg i conn queue) i conn := by
  refine ⟨.inl ⟨h, rfl⟩, ?_, fun j hj => WritePool.State.setPc_pc_of_ne _ hj _⟩
  unfold WritePool.State.take
  rw [WritePool.State.setPc_pc_self]
  split
  · exact .inl rfl
  · exact .inr rfl

/-- A call that wants a connection. -/
theorem kept_or_given_acquire (cfg : WritePool.Config) (s : WritePool.State ι) (i : ι) :
    Kept s (s.acquire cfg i) ∨ ∃ conn, Given s (s.acquire cfg i) i conn := by
  rcases s.acquire_cases cfg i with ⟨conn, queue, hqueue, h⟩ | ⟨_, _, h⟩ | ⟨_, _, h⟩
  · rw [h]
    exact .inr ⟨conn, given_take cfg hqueue i⟩
  · rw [h]
    have hcounted : Kept s { s with openConnections := s.openConnections + 1 } :=
      ⟨rfl, rfl, fun _ => .inl rfl⟩
    exact .inl (hcounted.setPc_none i rfl)
  · rw [h]
    exact .inl ((Kept.refl s).wait i)

/-- A call that has been woken. -/
theorem kept_or_given_get (cfg : WritePool.Config) (s : WritePool.State ι) (i : ι) :
    Kept s (s.get cfg i) ∨ ∃ conn, Given s (s.get cfg i) i conn := by
  rcases s.get_cases cfg i with ⟨conn, queue, hqueue, h⟩ | ⟨_, h⟩
  · rw [h]
    exact .inr ⟨conn, given_take cfg hqueue i⟩
  · rw [h]
    exact .inl ((Kept.refl s).wait i)

theorem kept_setPc {s : WritePool.State ι} {i : ι} {pc : Pc}
    (h : connection pc = none ∨ (∃ conn, s.pc i = .checking conn ∧ pc = .holding conn)
      ∨ ∃ conn, connection (s.pc i) = some conn ∧ (pc = .discarding conn ∨ pc = .closing conn)) :
    Kept s (s.setPc i pc) := by
  refine ⟨rfl, rfl, fun j => ?_⟩
  by_cases hj : j = i
  · rw [hj, WritePool.State.setPc_pc_self]
    exact .inr h
  · exact .inl (WritePool.State.setPc_pc_of_ne _ hj _)

/-- **What a step of the pool does**, other than returning a connection. -/
theorem kept_or_given {cfg : WritePool.Config} {s t : WritePool.State ι} {e : WritePool.Event ι}
    (h : WritePool.step cfg s e = some t) (he : ∀ i, e ≠ .release i false) :
    Kept s t ∨ ∃ i conn, Given s t i conn := by
  cases e with
  | acquire i =>
    cases hi : s.pc i <;> simp only [WritePool.step, hi, reduceCtorEq, Option.some.injEq] at h
    subst h
    exact (kept_or_given_acquire cfg s i).imp_right (fun hgiven => ⟨i, hgiven⟩)
  | checked i ready =>
    cases hi : s.pc i <;> simp only [WritePool.step, hi, reduceCtorEq, Option.some.injEq] at h
    subst h
    refine .inl (kept_setPc ?_)
    split
    · exact .inr (.inl ⟨_, hi, rfl⟩)
    · exact .inr (.inr ⟨_, by rw [hi]; rfl, .inl rfl⟩)
  | closed i =>
    cases hi : s.pc i <;> simp only [WritePool.step, hi, reduceCtorEq, Option.some.injEq] at h <;>
      subst h
    · exact (kept_or_given_acquire cfg s.decrement i).imp
        (fun hkept => ⟨hkept.queue, hkept.created, hkept.pc⟩)
        (fun hgiven => ⟨i, hgiven.imp (fun _ hgiven =>
          ⟨hgiven.source, hgiven.pc, hgiven.others⟩)⟩)
    · exact .inl ((kept_decrement s).setPc_none i rfl)
  | created i =>
    cases hi : s.pc i <;> simp only [WritePool.step, hi, reduceCtorEq, Option.some.injEq] at h
    subst h
    refine .inr ⟨i, s.created, .inr ⟨rfl, rfl, rfl⟩, .inr ?_, fun j hj => ?_⟩
    · exact WritePool.State.setPc_pc_self _ _ _
    · exact WritePool.State.setPc_pc_of_ne _ hj _
  | notCreated i =>
    cases hi : s.pc i <;> simp only [WritePool.step, hi, reduceCtorEq, Option.some.injEq] at h
    subst h
    exact .inl ((kept_decrement s).setPc_none i rfl)
  | resumed i =>
    cases hi : s.pc i <;> simp only [WritePool.step, hi, reduceCtorEq, Option.some.injEq] at h
    subst h
    exact (kept_or_given_get cfg s i).imp_right (fun hgiven => ⟨i, hgiven⟩)
  | timedOut i =>
    cases hi : s.pc i <;> simp only [WritePool.step, hi, reduceCtorEq, Option.some.injEq] at h <;>
      subst h
    · have hleft : Kept s { s with getters := s.getters.erase i } := ⟨rfl, rfl, fun _ => .inl rfl⟩
      exact .inl (hleft.setPc_none i rfl)
    · exact .inl ((Kept.refl s).passOn.setPc_none i rfl)
  | release i discard =>
    cases discard with
    | false => exact absurd rfl (he i)
    | true =>
      cases hi : s.pc i <;> simp only [WritePool.step, hi, reduceCtorEq, Option.some.injEq] at h
      subst h
      exact .inl (kept_setPc (.inr (.inr ⟨_, by rw [hi]; rfl, .inr rfl⟩)))
  | cancelled i =>
    cases hi : s.pc i <;> simp only [WritePool.step, hi, reduceCtorEq, Option.some.injEq] at h <;>
      subst h
    case checking => exact .inl (kept_setPc (.inl rfl))
    case creating => exact .inl (kept_setPc (.inl rfl))
    case discarding => exact .inl ((kept_decrement s).setPc_none i rfl)
    case closing => exact .inl ((kept_decrement s).setPc_none i rfl)
    case waiting =>
      have hleft : Kept s { s with getters := s.getters.erase i } := ⟨rfl, rfl, fun _ => .inl rfl⟩
      exact .inl (hleft.setPc_none i rfl)
    case woken => exact .inl ((Kept.refl s).passOn.setPc_none i rfl)

/-! ## The invariant -/

/-- **What keeps the statements apart**: a connection is with one call, or in the queue, or
with nobody, and only one that is with a call has statements pending, which are that
call's. -/
structure Inv (cfg : Option WritePool.Config) (s : State ι) : Prop where
  single_none : cfg ≠ none → s.single = none
  queue_nil : cfg = none → s.pool.queue = []
  queue_lt : ∀ conn ∈ s.pool.queue, conn < s.pool.created
  single_lt : ∀ conn, s.single = some conn → conn < s.pool.created
  pc_lt : ∀ i conn, connection (s.pool.pc i) = some conn → conn < s.pool.created
  fresh : ∀ conn, s.pool.created ≤ conn → s.pending conn = []
  nodup : s.pool.queue.Nodup
  apart : ∀ i conn, connection (s.pool.pc i) = some conn → conn ∉ s.pool.queue
  one : ∀ i j conn, connection (s.pool.pc i) = some conn →
    connection (s.pool.pc j) = some conn → i = j
  idle : ∀ conn ∈ s.pool.queue, s.pending conn = []
  lent : ∀ conn, s.single = some conn → (∀ i, connection (s.pool.pc i) ≠ some conn) →
    s.pending conn = []
  checked : ∀ i conn, s.pool.pc i = .checking conn → s.pending conn = []
  own : ∀ i conn, s.pool.pc i = .holding conn → ∀ j ∈ s.pending conn, j = i
  settled : ∀ i conn, s.pool.pc i = .holding conn → s.settled i = true → s.pending conn = []
  logged : ∀ commit ∈ s.commits, ∀ j ∈ commit.2, j = commit.1

omit [DecidableEq ι] in
theorem held_eq_some_iff {s : State ι} {i : ι} {conn : ℕ} :
    s.held i = some conn ↔ s.pool.pc i = .holding conn := by
  unfold State.held
  split
  · next c hc => simp [hc]
  · next hne => simpa using fun h => hne conn h

omit [DecidableEq ι] in
theorem Inv.hygienic {cfg : Option WritePool.Config} {s : State ι} (h : Inv cfg s) :
    Hygienic s :=
  ⟨fun i conn hheld => h.own i conn (held_eq_some_iff.1 hheld), h.logged⟩

omit [DecidableEq ι] in
theorem inv_init (cfg : Option WritePool.Config) : Inv cfg ({} : State ι) where
  single_none _ := rfl
  queue_nil _ := rfl
  queue_lt _ hconn := by cases hconn
  single_lt _ hconn := by cases hconn
  pc_lt _ _ hconn := by cases hconn
  fresh _ _ := rfl
  nodup := List.nodup_nil
  apart _ _ hconn := by cases hconn
  one _ _ _ hconn := by cases hconn
  idle _ hconn := by cases hconn
  lent _ hconn := by cases hconn
  checked _ _ hconn := by cases hconn
  own _ _ hconn := by cases hconn
  settled _ _ hconn := by cases hconn
  logged _ hcommit := by cases hcommit

namespace Kept

variable {s t : WritePool.State ι}

omit [DecidableEq ι]

theorem connection (h : Kept s t) {j : ι} {conn : ℕ}
    (hj : ConnectionHygiene.connection (t.pc j) = some conn) :
    ConnectionHygiene.connection (s.pc j) = some conn := by
  rcases h.pc j with hsame | hnone | ⟨c, hs, ht⟩ | ⟨c, hs, ht⟩
  · rwa [← hsame]
  · rw [hnone] at hj
    cases hj
  · rw [ht] at hj
    rw [hs]
    exact hj
  · rw [hs]
    rcases ht with ht | ht <;> (rw [ht] at hj; exact hj)

theorem checking (h : Kept s t) {j : ι} {conn : ℕ} (hj : t.pc j = .checking conn) :
    s.pc j = .checking conn := by
  rcases h.pc j with hsame | hnone | ⟨c, _, ht⟩ | ⟨c, _, ht | ht⟩
  · rwa [← hsame]
  · rw [hj] at hnone
    cases hnone
  all_goals
    rw [hj] at ht
    cases ht

theorem holding (h : Kept s t) {j : ι} {conn : ℕ} (hj : t.pc j = .holding conn) :
    s.pc j = .holding conn ∨ s.pc j = .checking conn := by
  rcases h.pc j with hsame | hnone | ⟨c, hs, ht⟩ | ⟨c, _, ht | ht⟩
  · exact .inl (by rwa [← hsame])
  · rw [hj] at hnone
    cases hnone
  · rw [hj] at ht
    cases ht
    exact .inr hs
  all_goals
    rw [hj] at ht
    cases ht

end Kept

namespace Inv

variable {cfg : Option WritePool.Config} {s : State ι}

omit [DecidableEq ι] in
/-- No call gets a connection, and the single one is nobody's only if it is clean. -/
theorem kept (h : Inv cfg s) {t : WritePool.State ι} (hkept : Kept s.pool t)
    {single : Option ℕ} (hsingle : single = s.single ∨ single = none)
    (hlent : ∀ conn, single = some conn → (∀ i, connection (t.pc i) ≠ some conn) →
      s.pending conn = []) :
    Inv cfg { s with pool := t, single } where
  single_none hcfg := hsingle.elim (fun hs => hs.trans (h.single_none hcfg)) (fun hs => hs)
  queue_nil hcfg := hkept.queue.trans (h.queue_nil hcfg)
  queue_lt conn hconn := by
    rw [hkept.queue] at hconn
    rw [hkept.created]
    exact h.queue_lt conn hconn
  single_lt conn hconn := by
    rw [hkept.created]
    rcases hsingle with hs | hs
    · exact h.single_lt conn (hs ▸ hconn)
    · rw [show single = some conn from hconn] at hs
      cases hs
  pc_lt i conn hi := by
    rw [hkept.created]
    exact h.pc_lt i conn (hkept.connection hi)
  fresh conn hconn := h.fresh conn (hkept.created ▸ hconn)
  nodup := hkept.queue ▸ h.nodup
  apart i conn hi := by
    rw [hkept.queue]
    exact h.apart i conn (hkept.connection hi)
  one i j conn hi hj := h.one i j conn (hkept.connection hi) (hkept.connection hj)
  idle conn hconn := h.idle conn (hkept.queue ▸ hconn)
  lent := hlent
  checked i conn hi := h.checked i conn (hkept.checking hi)
  own i conn hi := by
    rcases hkept.holding hi with hs | hs
    · exact h.own i conn hs
    · rw [show s.pending conn = [] from h.checked i conn hs]
      nofun
  settled i conn hi hsettled := by
    rcases hkept.holding hi with hs | hs
    · exact h.settled i conn hs hsettled
    · exact h.checked i conn hs
  logged := h.logged

omit [DecidableEq ι] in
/-- A call gets a connection that nobody has, and that has nothing pending. -/
theorem given (h : Inv cfg s) {t : WritePool.State ι} {i : ι} {conn : ℕ}
    (hqueue : ∀ c ∈ t.queue, c ∈ s.pool.queue ∧ c ≠ conn) (hnodup : t.queue.Nodup)
    (hcreated : s.pool.created ≤ t.created) (hlt : conn < t.created)
    (hfree : ∀ j, connection (s.pool.pc j) ≠ some conn) (hpending : s.pending conn = [])
    (hpc : t.pc i = .checking conn ∨ t.pc i = .holding conn)
    (hothers : ∀ j, j ≠ i → t.pc j = s.pool.pc j) {single : Option ℕ}
    (hsingle : single = s.single ∨ single = some conn) (hnone : cfg ≠ none → single = none)
    (hbefore : s.single ≠ none → connection (s.pool.pc i) = none) :
    Inv cfg { s with pool := t, single } := by
  have hi : connection (t.pc i) = some conn := by rcases hpc with hp | hp <;> rw [hp] <;> rfl
  -- who has a connection now: the call this one, and the others those they had
  have hcases : ∀ j c, connection (t.pc j) = some c →
      (j = i ∧ c = conn) ∨ (j ≠ i ∧ c ≠ conn ∧ connection (s.pool.pc j) = some c) := by
    intro j c hj
    by_cases hji : j = i
    · rw [hji, hi, Option.some.injEq] at hj
      exact .inl ⟨hji, hj.symm⟩
    · rw [hothers j hji] at hj
      refine .inr ⟨hji, fun hc => hfree j (hc ▸ hj), hj⟩
  refine
    { single_none := hnone
      queue_nil := fun hcfg => ?_
      queue_lt := fun c hc => (h.queue_lt c (hqueue c hc).1).trans_le hcreated
      single_lt := fun c hc => ?_
      pc_lt := fun j c hj => ?_
      fresh := fun c hc => h.fresh c (hcreated.trans hc)
      nodup := hnodup
      apart := fun j c hj => ?_
      one := fun j k c hj hk => ?_
      idle := fun c hc => h.idle c (hqueue c hc).1
      lent := fun c hc hfreed => ?_
      checked := fun j c hj => ?_
      own := fun j c hj => ?_
      settled := fun j c hj hsettled => ?_
      logged := h.logged }
  · refine List.eq_nil_iff_forall_not_mem.2 (fun c hc => ?_)
    have hmem := (hqueue c hc).1
    rw [h.queue_nil hcfg] at hmem
    cases hmem
  · rcases hsingle with hs | hs
    · exact (h.single_lt c (hs ▸ hc)).trans_le hcreated
    · rw [show single = some c from hc, Option.some.injEq] at hs
      rwa [hs]
  · rcases hcases j c hj with ⟨_, rfl⟩ | ⟨_, _, hj⟩
    · exact hlt
    · exact (h.pc_lt j c hj).trans_le hcreated
  · rcases hcases j c hj with ⟨_, rfl⟩ | ⟨_, _, hj⟩
    · exact fun hin => (hqueue c hin).2 rfl
    · exact fun hin => h.apart j c hj (hqueue c hin).1
  · rcases hcases j c hj with ⟨hj, hc⟩ | ⟨_, hc, hj⟩ <;>
      rcases hcases k c hk with ⟨hk, hc'⟩ | ⟨_, hc', hk⟩
    · exact hj.trans hk.symm
    · exact absurd hc hc'
    · exact absurd hc' hc
    · exact h.one j k c hj hk
  · have hne : c ≠ conn := fun hc' => hfreed i (hc' ▸ hi)
    have hs : s.single = some c := by
      rcases hsingle with hs | hs
      · exact hs ▸ hc
      · rw [show single = some c from hc, Option.some.injEq] at hs
        exact absurd hs hne
    refine h.lent c hs (fun j hj => ?_)
    by_cases hji : j = i
    · rw [hji, hbefore (by rw [hs]; nofun)] at hj
      cases hj
    · refine hfreed j ?_
      show connection (t.pc j) = some c
      rwa [hothers j hji]
  · rcases hcases j c (by rw [show t.pc j = _ from hj]; rfl) with ⟨_, rfl⟩ | ⟨hji, _, _⟩
    · exact hpending
    · exact h.checked j c ((hothers j hji).symm.trans hj)
  · rcases hcases j c (by rw [show t.pc j = _ from hj]; rfl) with ⟨_, rfl⟩ | ⟨hji, _, _⟩
    · rw [show s.pending c = [] from hpending]
      nofun
    · exact h.own j c ((hothers j hji).symm.trans hj)
  · rcases hcases j c (by rw [show t.pc j = _ from hj]; rfl) with ⟨_, rfl⟩ | ⟨hji, _, _⟩
    · exact hpending
    · exact h.settled j c ((hothers j hji).symm.trans hj) hsettled

/-- **What a call does to the transaction of its connection.** -/
theorem setPending (h : Inv cfg s) {i : ι} {conn : ℕ} (hi : s.pool.pc i = .holding conn)
    {pending : List ι} (hown : ∀ j ∈ pending, j = i) {settled : Bool}
    (hsettled : settled = true → pending = []) :
    Inv cfg (s.setPending i conn pending settled) := by
  have hconn : connection (s.pool.pc i) = some conn := by
    rw [hi]
    rfl
  have hne : ∀ c, c ≠ conn → (s.setPending i conn pending settled).pending c = s.pending c :=
    fun c hc => Function.update_of_ne hc _ _
  have hself : (s.setPending i conn pending settled).pending conn = pending :=
    Function.update_self _ _ _
  refine
    { single_none := h.single_none
      queue_nil := h.queue_nil
      queue_lt := h.queue_lt
      single_lt := h.single_lt
      pc_lt := h.pc_lt
      fresh := fun c hc => ?_
      nodup := h.nodup
      apart := h.apart
      one := h.one
      idle := fun c hc => ?_
      lent := fun c hc hfree => ?_
      checked := fun j c hj => ?_
      own := fun j c hj => ?_
      settled := fun j c hj hdone => ?_
      logged := h.logged }
  · have hlt := h.pc_lt i conn hconn
    rw [hne c (hlt.trans_le hc).ne']
    exact h.fresh c hc
  · rw [hne c (fun heq => h.apart i conn hconn (heq ▸ hc))]
    exact h.idle c hc
  · rw [hne c (fun heq => hfree i (heq ▸ hconn))]
    exact h.lent c hc hfree
  · have hj' : s.pool.pc j = .checking c := hj
    by_cases hc : c = conn
    · obtain rfl := h.one i j conn hconn (by rw [hj', hc]; rfl)
      rw [hi] at hj'
      cases hj'
    · rw [hne c hc]
      exact h.checked j c hj'
  · have hj' : s.pool.pc j = .holding c := hj
    by_cases hc : c = conn
    · obtain rfl := h.one i j conn hconn (by rw [hj', hc]; rfl)
      rw [hc, hself]
      exact hown
    · rw [hne c hc]
      exact h.own j c hj'
  · have hj' : s.pool.pc j = .holding c := hj
    by_cases hc : c = conn
    · obtain rfl := h.one i j conn hconn (by rw [hj', hc]; rfl)
      rw [hc, hself]
      refine hsettled ?_
      rw [← hdone]
      exact (Function.update_self i settled s.settled).symm
    · have hji : j ≠ i := by
        rintro rfl
        rw [hi, Pc.holding.injEq] at hj'
        exact hc hj'.symm
      have hdone' : s.settled j = true := by
        rw [← hdone]
        exact (Function.update_of_ne hji settled s.settled).symm
      rw [hne c hc]
      exact h.settled j c hj' hdone'

omit [DecidableEq ι] in
theorem commits (h : Inv cfg s) {i : ι} {own : List ι} (hown : ∀ j ∈ own, j = i) :
    Inv cfg { s with commits := s.commits ++ [(i, own)] } :=
  { h with
    logged := by
      intro commit hcommit
      rcases List.mem_append.1 hcommit with hbefore | hlast
      · exact h.logged commit hbefore
      · obtain rfl := List.mem_singleton.1 hlast
        exact hown }

end Inv

/-! ## The invariant over a step -/

section Step

variable {cfg : Option WritePool.Config} {s : State ι}

omit [DecidableEq ι] in
/-- In the pool nothing is nobody's. -/
theorem lent_of_pool (h : Inv cfg s) (hcfg : cfg ≠ none) (t : WritePool.State ι) (conn : ℕ)
    (hconn : s.single = some conn) (_ : ∀ i, connection (t.pc i) ≠ some conn) :
    s.pending conn = [] := by
  rw [h.single_none hcfg] at hconn
  cases hconn

/-- One call goes on, and had no connection that is the single one. -/
theorem lent_of_setPc (h : Inv cfg s) {i : ι} {pc : Pc}
    (hi : ∀ conn, s.single = some conn → connection (s.pool.pc i) = some conn →
      connection pc = some conn ∨ s.pending conn = []) (conn : ℕ) (hconn : s.single = some conn)
    (hfree : ∀ j, connection ((s.pool.setPc i pc).pc j) ≠ some conn) : s.pending conn = [] := by
  by_cases hhad : connection (s.pool.pc i) = some conn
  · refine (hi conn hconn hhad).resolve_left (fun hpc => hfree i ?_)
    rwa [WritePool.State.setPc_pc_self]
  · refine h.lent conn hconn (fun j hj => ?_)
    by_cases hji : j = i
    · exact hhad (hji ▸ hj)
    · refine hfree j ?_
      rwa [WritePool.State.setPc_pc_of_ne _ hji]

/-- **A connection that goes back clean**, before the queue wakes anyone. -/
theorem inv_enqueued {cfg : WritePool.Config} (h : Inv (some cfg) s) {i : ι} {conn : ℕ}
    (hi : s.pool.pc i = .holding conn) (hclean : s.pending conn = []) :
    Inv (some cfg)
      { s with pool := { s.pool with queue := conn :: s.pool.queue }.setPc i .ended } := by
  have hconn : connection (s.pool.pc i) = some conn := by
    rw [hi]
    rfl
  have hended : ({ s.pool with queue := conn :: s.pool.queue }.setPc i .ended).pc i = .ended :=
    WritePool.State.setPc_pc_self _ _ _
  have hothers : ∀ j, j ≠ i →
      ({ s.pool with queue := conn :: s.pool.queue }.setPc i .ended).pc j = s.pool.pc j :=
    fun j hj => WritePool.State.setPc_pc_of_ne _ hj _
  -- whoever has a connection now is another call, and had it before
  have hhad : ∀ j c,
      connection (({ s.pool with queue := conn :: s.pool.queue }.setPc i .ended).pc j) = some c →
      j ≠ i ∧ connection (s.pool.pc j) = some c := by
    intro j c hj
    by_cases hji : j = i
    · rw [hji, hended] at hj
      cases hj
    · rw [hothers j hji] at hj
      exact ⟨hji, hj⟩
  refine
    { single_none := h.single_none
      queue_nil := nofun
      queue_lt := fun c hc => ?_
      single_lt := h.single_lt
      pc_lt := fun j c hj => h.pc_lt j c (hhad j c hj).2
      fresh := h.fresh
      nodup := List.nodup_cons.2 ⟨h.apart i conn hconn, h.nodup⟩
      apart := fun j c hj hc => ?_
      one := fun j k c hj hk => h.one j k c (hhad j c hj).2 (hhad k c hk).2
      idle := fun c hc => ?_
      lent := lent_of_pool h (Option.some_ne_none cfg) _
      checked := fun j c hj => ?_
      own := fun j c hj => ?_
      settled := fun j c hj hdone => ?_
      logged := h.logged }
  · rcases List.mem_cons.1 hc with rfl | hc
    · exact h.pc_lt i c hconn
    · exact h.queue_lt c hc
  · obtain ⟨hji, hhas⟩ := hhad j c hj
    rcases List.mem_cons.1 hc with rfl | hc
    · exact hji (h.one j i c hhas hconn)
    · exact h.apart j c hhas hc
  · rcases List.mem_cons.1 hc with rfl | hc
    · exact hclean
    · exact h.idle c hc
  · have hji := (hhad j c (by rw [show _ = Pc.checking c from hj]; rfl)).1
    exact h.checked j c ((hothers j hji).symm.trans hj)
  · have hji := (hhad j c (by rw [show _ = Pc.holding c from hj]; rfl)).1
    exact h.own j c ((hothers j hji).symm.trans hj)
  · have hji := (hhad j c (by rw [show _ = Pc.holding c from hj]; rfl)).1
    exact h.settled j c ((hothers j hji).symm.trans hj) hdone

theorem inv_returned {cfg : WritePool.Config} (h : Inv (some cfg) s) {i : ι} {conn : ℕ}
    (hi : s.pool.pc i = .holding conn) (hclean : s.pending conn = []) :
    Inv (some cfg) { s with pool := (s.pool.put cfg conn).setPc i .ended } := by
  unfold WritePool.State.put
  split
  · have hwoken := (Kept.refl ({ s.pool with queue := conn :: s.pool.queue } :
      WritePool.State ι)).wakeUp
    have hkept : Kept ({ s.pool with queue := conn :: s.pool.queue }.setPc i .ended)
        (({ s.pool with queue := conn :: s.pool.queue } : WritePool.State ι).wakeUp.setPc i
          .ended) := by
      refine ⟨hwoken.queue, hwoken.created, fun j => ?_⟩
      by_cases hji : j = i
      · rw [hji, WritePool.State.setPc_pc_self, WritePool.State.setPc_pc_self]
        exact .inl rfl
      · rw [WritePool.State.setPc_pc_of_ne _ hji, WritePool.State.setPc_pc_of_ne _ hji]
        exact hwoken.pc j
    have hinv := inv_enqueued h hi hclean
    exact hinv.kept hkept (.inl rfl) (lent_of_pool hinv (Option.some_ne_none cfg) _)
  · exact h.kept (kept_setPc (.inl rfl)) (.inl rfl) (lent_of_pool h (Option.some_ne_none cfg) _)

/-- A step of the pool. -/
theorem inv_poolStep {cfg : WritePool.Config} (h : Inv (some cfg) s) {e : WritePool.Event ι}
    {pool : WritePool.State ι} (hstep : WritePool.step cfg s.pool e = some pool)
    (hrelease : ∀ i, e = .release i false → ∀ conn, s.held i = some conn →
      s.pending conn = []) : Inv (some cfg) { s with pool } := by
  by_cases he : ∃ i, e = .release i false
  · obtain ⟨i, rfl⟩ := he
    cases hi : s.pool.pc i <;>
      simp only [WritePool.step, hi, reduceCtorEq, Option.some.injEq] at hstep
    subst hstep
    exact inv_returned h hi (hrelease i rfl _ (held_eq_some_iff.2 hi))
  · rcases kept_or_given hstep (fun i hi => he ⟨i, hi⟩) with hkept | ⟨i, conn, hgiven⟩
    · exact h.kept hkept (.inl rfl) (lent_of_pool h (Option.some_ne_none cfg) _)
    · have hsingle : s.single = none := h.single_none (Option.some_ne_none cfg)
      have hbefore : s.single ≠ none → connection (s.pool.pc i) = none :=
        fun hne => absurd hsingle hne
      rcases hgiven.source with ⟨hqueue, hcreated⟩ | ⟨rfl, hqueue, hcreated⟩
      · have hnodup := h.nodup
        rw [hqueue, List.nodup_cons] at hnodup
        have hmem : conn ∈ s.pool.queue := by
          rw [hqueue]
          exact List.mem_cons_self
        refine h.given (t := pool) (fun c hc => ⟨?_, ?_⟩) hnodup.2 hcreated.ge ?_
          (fun j hj => h.apart j conn hj hmem) (h.idle conn hmem) hgiven.pc hgiven.others
          (.inl rfl) h.single_none hbefore
        · rw [hqueue]
          exact List.mem_cons_of_mem conn hc
        · rintro rfl
          exact hnodup.1 hc
        · rw [hcreated]
          exact h.queue_lt conn hmem
      · refine h.given (fun c hc => ?_) (hqueue ▸ h.nodup) (by omega) (by omega)
          (fun j hj => (h.pc_lt j _ hj).ne rfl) (h.fresh _ le_rfl) hgiven.pc hgiven.others
          (.inl rfl) h.single_none hbefore
        rw [hqueue] at hc
        exact ⟨hc, (h.queue_lt c hc).ne⟩

/-- A step of the single connection. -/
theorem inv_singleStep (h : Inv none s) {e : WritePool.Event ι} {t : State ι}
    (hstep : s.singleStep e = some t)
    (hrelease : ∀ i, e = .release i false → ∀ conn, s.held i = some conn → s.pending conn = [])
    (hacquire : ∀ i, e = .acquire i → ∀ conn, s.single = some conn →
      ∀ j, connection (s.pool.pc j) ≠ some conn) : Inv none t := by
  cases e with
  | acquire i =>
    cases hi : s.pool.pc i <;> simp only [State.singleStep, hi, reduceCtorEq] at hstep
    split at hstep
    · next conn hsingle =>
      cases hstep
      have hfree := hacquire i rfl conn hsingle
      refine h.given (t := s.pool.setPc i (.holding conn)) (i := i) (fun c hc => ?_) h.nodup
        le_rfl (h.single_lt conn hsingle) hfree
        (h.lent conn hsingle hfree) (.inr (WritePool.State.setPc_pc_self _ _ _))
        (fun j hj => WritePool.State.setPc_pc_of_ne _ hj _) (.inl rfl) (fun hne => absurd rfl hne)
        (fun _ => by rw [hi]; rfl)
      rw [WritePool.State.setPc_queue, h.queue_nil rfl] at hc
      cases hc
    · next hsingle =>
      cases hstep
      refine h.kept (kept_setPc (.inl rfl)) (.inl rfl) (fun conn hconn => ?_)
      rw [hsingle] at hconn
      cases hconn
  | created i =>
    cases hi : s.pool.pc i <;>
      simp only [State.singleStep, hi, reduceCtorEq, Option.some.injEq] at hstep
    subst hstep
    refine h.given (t := { s.pool with created := s.pool.created + 1 }.setPc i
      (.holding s.pool.created)) (i := i) (fun c hc => ?_) h.nodup (Nat.le_succ _)
      (Nat.lt_succ_self _)
      (fun j hj => (h.pc_lt j _ hj).ne rfl) (h.fresh _ le_rfl)
      (.inr (WritePool.State.setPc_pc_self _ _ _))
      (fun j hj => WritePool.State.setPc_pc_of_ne _ hj _) (.inr rfl) (fun hne => absurd rfl hne)
      (fun _ => by rw [hi]; rfl)
    rw [WritePool.State.setPc_queue, show ({ s.pool with created := s.pool.created + 1 } :
      WritePool.State ι).queue = s.pool.queue from rfl, h.queue_nil rfl] at hc
    cases hc
  | notCreated i =>
    cases hi : s.pool.pc i <;>
      simp only [State.singleStep, hi, reduceCtorEq, Option.some.injEq] at hstep
    subst hstep
    refine h.kept (kept_setPc (.inl rfl)) (.inl rfl) (lent_of_setPc h (fun conn _ hhad => ?_))
    rw [hi] at hhad
    cases hhad
  | release i discard =>
    cases hi : s.pool.pc i <;>
      simp only [State.singleStep, hi, reduceCtorEq, Option.some.injEq] at hstep
    next conn =>
    subst hstep
    split
    · next hdiscard =>
      refine h.kept (kept_setPc (.inr (.inr ⟨conn, by rw [hi]; rfl, .inr rfl⟩))) (.inl rfl)
        (lent_of_setPc h (fun c _ hhad => .inl ?_))
      rw [hi] at hhad
      exact hhad
    · next hkeep =>
      refine h.kept (kept_setPc (.inl rfl)) (.inl rfl)
        (lent_of_setPc h (fun c hsingle hhad => .inr ?_))
      rw [hi] at hhad
      obtain rfl : conn = c := by simpa [connection] using hhad
      -- the single connection stays only where it is not to be discarded
      cases discard with
      | true => exact absurd ⟨rfl, hsingle⟩ hkeep
      | false => exact hrelease i rfl conn (held_eq_some_iff.2 hi)
  | closed i =>
    cases hi : s.pool.pc i <;>
      simp only [State.singleStep, hi, reduceCtorEq, Option.some.injEq] at hstep
    subst hstep
    exact h.kept (kept_setPc (.inl rfl)) (.inr rfl) nofun
  | cancelled i =>
    cases hi : s.pool.pc i <;>
      simp only [State.singleStep, hi, reduceCtorEq, Option.some.injEq] at hstep <;> subst hstep
    · refine h.kept (kept_setPc (.inl rfl)) (.inl rfl) (lent_of_setPc h (fun conn _ hhad => ?_))
      rw [hi] at hhad
      cases hhad
    · exact h.kept (kept_setPc (.inl rfl)) (.inr rfl) nofun
  | checked i ready => cases hstep
  | resumed i => cases hstep
  | timedOut i => cases hstep

/-- **On the way to a connection and back** the statements stay apart. -/
theorem inv_connect (h : Inv cfg s) {e : WritePool.Event ι} {t : State ι}
    (hstep : connect cfg s e = some t)
    (hrelease : ∀ i, e = .release i false → ∀ conn, s.held i = some conn → s.pending conn = [])
    (hacquire : ∀ i, e = .acquire i → cfg = none → ∀ conn, s.single = some conn →
      ∀ j, connection (s.pool.pc j) ≠ some conn) : Inv cfg t := by
  match cfg with
  | none => exact inv_singleStep h hstep hrelease (fun i he => hacquire i he rfl)
  | some cfg =>
    obtain ⟨pool, hpool, rfl⟩ := Option.map_eq_some_iff.1 hstep
    exact inv_poolStep h hpool hrelease

/-- **The statements stay apart** in every tidy step. -/
theorem inv_step {e : Event ι} {t : State ι} (h : Inv cfg s) (htidy : Tidy cfg s e)
    (hstep : step cfg s e = some t) : Inv cfg t := by
  cases e with
  | pool e =>
    cases e with
    | release i discard => cases hstep
    | acquire i =>
      exact inv_connect h hstep nofun (fun _ _ hcfg => htidy hcfg)
    | checked i ready => exact inv_connect h hstep nofun nofun
    | closed i => exact inv_connect h hstep nofun nofun
    | created i => exact inv_connect h hstep nofun nofun
    | notCreated i => exact inv_connect h hstep nofun nofun
    | resumed i => exact inv_connect h hstep nofun nofun
    | timedOut i => exact inv_connect h hstep nofun nofun
    | cancelled i => exact inv_connect h hstep nofun nofun
  | executed i =>
    obtain ⟨conn, hheld, rfl⟩ := Option.map_eq_some_iff.1 hstep
    have hi := held_eq_some_iff.1 hheld
    refine h.setPending hi (fun j hj => ?_) nofun
    rcases List.mem_append.1 hj with hj | hj
    · exact h.own i conn hi j hj
    · exact List.mem_singleton.1 hj
  | aborted i =>
    obtain ⟨conn, hheld, rfl⟩ := Option.map_eq_some_iff.1 hstep
    exact h.setPending (held_eq_some_iff.1 hheld) (by simp) nofun
  | rolledBack i =>
    obtain ⟨conn, hheld, rfl⟩ := Option.map_eq_some_iff.1 hstep
    exact h.setPending (held_eq_some_iff.1 hheld) (by simp) (fun _ => rfl)
  | committed i =>
    obtain ⟨conn, hheld, rfl⟩ := Option.map_eq_some_iff.1 hstep
    have hi := held_eq_some_iff.1 hheld
    exact (h.setPending hi (by simp) (fun _ => rfl)).commits (h.own i conn hi)
  | finished i =>
    rw [step] at hstep
    split at hstep
    · next hsettled =>
      refine inv_connect h hstep (fun j hj conn hheld => ?_) nofun
      cases hj
      exact h.settled i conn (held_eq_some_iff.1 hheld) hsettled
    · cases hstep
  | raised i => exact inv_connect h hstep nofun nofun
  | interrupted i =>
    refine inv_connect h hstep (fun j hj conn hheld => ?_) nofun
    cases hj
    exact htidy conn hheld

end Step

/-! ## What a step does to the other calls -/

section Calls

variable {cfg : Option WritePool.Config} {s t : State ι}

/-- **A step of the single connection** moves its call, which does not wait for it. -/
theorem singleStep_spec {e : WritePool.Event ι} (h : s.singleStep e = some t) :
    ∃ u : State ι, ∃ pc, u.pool.getters = s.pool.getters ∧ u.pool.pc = s.pool.pc
      ∧ u.commits = s.commits ∧ t = u.setPc e.call pc ∧ s.pool.pc e.call ≠ .waiting
      ∧ pc ≠ .waiting := by
  cases e with
  | acquire i =>
    cases hi : s.pool.pc i <;> simp only [State.singleStep, hi, reduceCtorEq] at h
    split at h <;> cases h
    · exact ⟨s, _, rfl, rfl, rfl, rfl, hi ▸ nofun, nofun⟩
    · exact ⟨s, _, rfl, rfl, rfl, rfl, hi ▸ nofun, nofun⟩
  | created i =>
    cases hi : s.pool.pc i <;>
      simp only [State.singleStep, hi, reduceCtorEq, Option.some.injEq] at h
    subst h
    exact ⟨{ s with
      pool := { s.pool with created := s.pool.created + 1 }, single := some s.pool.created },
      _, rfl, rfl, rfl, rfl, hi ▸ nofun, nofun⟩
  | notCreated i =>
    cases hi : s.pool.pc i <;>
      simp only [State.singleStep, hi, reduceCtorEq, Option.some.injEq] at h
    subst h
    exact ⟨s, _, rfl, rfl, rfl, rfl, hi ▸ nofun, nofun⟩
  | release i discard =>
    cases hi : s.pool.pc i <;>
      simp only [State.singleStep, hi, reduceCtorEq, Option.some.injEq] at h
    subst h
    refine ⟨s, _, rfl, rfl, rfl, rfl, hi ▸ nofun, ?_⟩
    split <;> exact nofun
  | closed i =>
    cases hi : s.pool.pc i <;>
      simp only [State.singleStep, hi, reduceCtorEq, Option.some.injEq] at h
    subst h
    exact ⟨{ s with single := none }, _, rfl, rfl, rfl, rfl, hi ▸ nofun, nofun⟩
  | cancelled i =>
    cases hi : s.pool.pc i <;>
      simp only [State.singleStep, hi, reduceCtorEq, Option.some.injEq] at h <;> subst h
    · exact ⟨s, _, rfl, rfl, rfl, rfl, hi ▸ nofun, nofun⟩
    · exact ⟨{ s with single := none }, _, rfl, rfl, rfl, rfl, hi ▸ nofun, nofun⟩
  | checked i ready => cases h
  | resumed i => cases h
  | timedOut i => cases h

/-- **Where a step leaves the other calls**: where they are, unless they are woken. -/
structure Aside (i : ι) (s t : State ι) : Prop where
  queued : WritePool.Queued t.pool
  others : ∀ j, j ≠ i → s.pool.pc j ≠ .waiting → t.pool.pc j = s.pool.pc j

theorem aside_connect {e : WritePool.Event ι} (hs : WritePool.Queued s.pool)
    (h : connect cfg s e = some t) : Aside e.call s t := by
  match cfg with
  | some cfg =>
    obtain ⟨pool, hpool, rfl⟩ := Option.map_eq_some_iff.1 h
    exact ⟨WritePool.queued_step hs hpool, fun j hj => WritePool.pc_step_of_ne hs hpool hj⟩
  | none =>
    obtain ⟨u, pc, hgetters, hpc, _, rfl, hold, hnew⟩ := singleStep_spec h
    refine ⟨?_, fun j hj _ => ?_⟩
    · have hu : WritePool.Queued u.pool :=
        ⟨hgetters ▸ hs.nodup, fun j => by rw [hgetters, hpc]; exact hs.mem_getters j⟩
      exact hu.setPc (hpc ▸ hold) hnew
    · exact (WritePool.State.setPc_pc_of_ne _ hj _).trans (congrFun hpc j)

theorem commits_connect {e : WritePool.Event ι} (h : connect cfg s e = some t) :
    t.commits = s.commits := by
  match cfg with
  | some cfg =>
    obtain ⟨pool, _, rfl⟩ := Option.map_eq_some_iff.1 h
    rfl
  | none =>
    obtain ⟨u, pc, _, _, hcommits, rfl, _, _⟩ := singleStep_spec h
    exact hcommits

theorem release_of_holding {e : WritePool.Event ι} {conn : ℕ} (h : connect cfg s e = some t)
    (hi : s.pool.pc e.call = .holding conn) : ∃ discard, e = .release e.call discard := by
  match cfg with
  | some cfg =>
    obtain ⟨pool, hpool, _⟩ := Option.map_eq_some_iff.1 h
    exact WritePool.release_of_holding hpool hi
  | none =>
    cases e with
    | release i discard => exact ⟨discard, rfl⟩
    | acquire i => simp [connect, State.singleStep, show s.pool.pc i = _ from hi] at h
    | closed i => simp [connect, State.singleStep, show s.pool.pc i = _ from hi] at h
    | created i => simp [connect, State.singleStep, show s.pool.pc i = _ from hi] at h
    | notCreated i => simp [connect, State.singleStep, show s.pool.pc i = _ from hi] at h
    | cancelled i => simp [connect, State.singleStep, show s.pool.pc i = _ from hi] at h
    | checked i ready => cases h
    | resumed i => cases h
    | timedOut i => cases h

/-- A step on the way to a connection and back is one of the pool, or of the single connection. -/
theorem connect_of_pool {e : WritePool.Event ι} (h : step cfg s (.pool e) = some t) :
    connect cfg s e = some t ∧ ∀ i discard, e ≠ .release i discard := by
  cases e with
  | release i discard => cases h
  | _ => exact ⟨h, nofun⟩

/-- **One event** moves no other call. -/
theorem aside_step {e : Event ι} (hs : WritePool.Queued s.pool) (h : step cfg s e = some t) :
    Aside e.call s t := by
  cases e with
  | pool e => exact aside_connect hs (connect_of_pool h).1
  | executed i =>
    obtain ⟨_, _, rfl⟩ := Option.map_eq_some_iff.1 h
    exact ⟨hs, fun _ _ _ => rfl⟩
  | aborted i =>
    obtain ⟨_, _, rfl⟩ := Option.map_eq_some_iff.1 h
    exact ⟨hs, fun _ _ _ => rfl⟩
  | rolledBack i =>
    obtain ⟨_, _, rfl⟩ := Option.map_eq_some_iff.1 h
    exact ⟨hs, fun _ _ _ => rfl⟩
  | committed i =>
    obtain ⟨_, _, rfl⟩ := Option.map_eq_some_iff.1 h
    exact ⟨hs, fun _ _ _ => rfl⟩
  | finished i =>
    rw [step, Option.ite_none_right_eq_some] at h
    exact aside_connect hs h.2
  | raised i => exact aside_connect (e := .release i true) hs h
  | interrupted i => exact aside_connect (e := .release i false) hs h

/-- **What a step commits**, if it does: what its call's connection has pending. -/
theorem commits_step {e : Event ι} (h : step cfg s e = some t) :
    t.commits = s.commits ∨ ∃ conn, s.held e.call = some conn
      ∧ t.pool = s.pool ∧ t.commits = s.commits ++ [(e.call, s.pending conn)] := by
  cases e with
  | pool e => exact .inl (commits_connect (connect_of_pool h).1)
  | executed i =>
    obtain ⟨_, _, rfl⟩ := Option.map_eq_some_iff.1 h
    exact .inl rfl
  | aborted i =>
    obtain ⟨_, _, rfl⟩ := Option.map_eq_some_iff.1 h
    exact .inl rfl
  | rolledBack i =>
    obtain ⟨_, _, rfl⟩ := Option.map_eq_some_iff.1 h
    exact .inl rfl
  | committed i =>
    obtain ⟨conn, hheld, rfl⟩ := Option.map_eq_some_iff.1 h
    exact .inr ⟨conn, hheld, rfl, rfl⟩
  | finished i =>
    rw [step, Option.ite_none_right_eq_some] at h
    exact .inl (commits_connect h.2)
  | raised i => exact .inl (commits_connect h)
  | interrupted i => exact .inl (commits_connect h)

/-- **A call that has its connection** keeps it, or leaves with it. -/
theorem leaves_of_holding {e : Event ι} {conn : ℕ} (h : step cfg s e = some t)
    (hi : s.pool.pc e.call = .holding conn) : t.pool.pc e.call = .holding conn
      ∨ e = .finished e.call ∨ e = .raised e.call ∨ e = .interrupted e.call := by
  cases e with
  | pool e =>
    obtain ⟨hconnect, hne⟩ := connect_of_pool h
    obtain ⟨discard, hrelease⟩ := release_of_holding hconnect hi
    exact absurd hrelease (hne _ _)
  | executed i =>
    obtain ⟨_, _, rfl⟩ := Option.map_eq_some_iff.1 h
    exact .inl hi
  | aborted i =>
    obtain ⟨_, _, rfl⟩ := Option.map_eq_some_iff.1 h
    exact .inl hi
  | rolledBack i =>
    obtain ⟨_, _, rfl⟩ := Option.map_eq_some_iff.1 h
    exact .inl hi
  | committed i =>
    obtain ⟨_, _, rfl⟩ := Option.map_eq_some_iff.1 h
    exact .inl hi
  | finished i => exact .inr (.inl rfl)
  | raised i => exact .inr (.inr (.inl rfl))
  | interrupted i => exact .inr (.inr (.inr rfl))

end Calls

end ConnectionHygiene

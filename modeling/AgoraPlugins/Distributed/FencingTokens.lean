import AgoraPlugins.Distributed.FencingKeys
import AgoraPlugins.Distributed.Redlock

/-!
# Fencing tokens

A fencing token is to tell a later holder of a lease from an earlier one: it should grow
from one acquisition to the next. It does in the order in which the counter of the
pipeline is incremented, unless its key expires in between, which it only can where
`fencing_key_ttl_seconds` is set.

A single Redis increments the counter in the script that stores the lease, so the order
is that of the leases. There a token is a number of Lua on its way, which is exact below
`2 ^ 53`. Redlock reserves the token on the primary first, and the nodes store the lease
later. So the token is larger than that of any attempt which had sent its requests before
the reservation; of two attempts at once, the one with the smaller token may be the one
that succeeds last.
-/

open Machine

/-! ## A single Redis -/

namespace PrimaryLeases

/-- A lease that was stored, after the fencing key had expired so many times. -/
structure Stored where
  pipelineId : String
  epoch : ℕ
  fencingToken : ℕ

/-- **The leases of a single Redis**, by pipeline, and its fencing keys, with the leases
stored so far. -/
structure State where
  leases : Dict String LeaseDocument
  keys : FencingKeys
  stored : List Stored

def State.init : State := ⟨∅, .empty, []⟩

/-- Scripts that workers have called are executed, and keys expire. -/
inductive Event where
  | acquire (workerId acquiredAt pipelineId : String) (runNumber : ℕ)
  | release (workerId pipelineId : String) (fencingToken : ℕ)
  | renew (workerId pipelineId : String) (fencingToken : ℕ)
  | expired (pipelineId : String)
  | fencingKeyExpired (pipelineId : String)

variable (s : State)

/-- The token that the acquire script is given by `INCR`. -/
def State.fencingToken (pipelineId : String) : ℕ :=
  LuaNumber.tonumber (s.keys.next pipelineId).count

/-- `_ACQUIRE_SCRIPT`. -/
def acquireScript (fencingKeyTtl : ℕ) (workerId acquiredAt pipelineId : String)
    (runNumber : ℕ) : ScriptReply × State :=
  match s.leases.lookup pipelineId with
  | some _ => (.pair 0 none, s)
  | none =>
    let keys := s.keys.incr pipelineId
    (.pair 1 (some (s.fencingToken pipelineId)),
      { leases := s.leases.insert pipelineId
          { workerId := workerId
            acquiredAt := acquiredAt
            pipelineId := pipelineId
            runNumber := LuaNumber.tonumber runNumber
            fencingToken := LuaNumber.tostring (s.fencingToken pipelineId) }
        keys := if 0 < fencingKeyTtl then keys.limit pipelineId else keys
        stored := s.stored
          ++ [⟨pipelineId, s.keys.epoch pipelineId, s.fencingToken pipelineId⟩] })

/-- The test of the release and the renewal script. -/
def isOf (data : LeaseDocument) (workerId : String) (fencingToken : ℕ) : Bool :=
  data.workerId = workerId && data.fencingToken = toString fencingToken

/-- `_RELEASE_SCRIPT`. -/
def releaseScript (workerId pipelineId : String) (fencingToken : ℕ) : ScriptReply × State :=
  match s.leases.lookup pipelineId with
  | none => (.integer 0, s)
  | some data =>
    if isOf data workerId fencingToken then
      (.integer 1, { s with leases := s.leases.erase pipelineId })
    else (.integer 0, s)

/-- `_RENEW_SCRIPT`, which gives the lease a new time to live. -/
def renewScript (workerId pipelineId : String) (fencingToken : ℕ) : ScriptReply × State :=
  match s.leases.lookup pipelineId with
  | none => (.integer 0, s)
  | some data =>
    if isOf data workerId fencingToken then (.integer 1, s) else (.integer 0, s)

/-- **One event.** -/
def step (fencingKeyTtl : ℕ) (s : State) : Event → Option State
  | .acquire w a p n => some (acquireScript s fencingKeyTtl w a p n).2
  | .release w p token => some (releaseScript s w p token).2
  | .renew w p token => some (renewScript s w p token).2
  | .expired p => some { s with leases := s.leases.erase p }
  | .fencingKeyExpired p => (s.keys.lapse p).map (fun keys => { s with keys := keys })

/-- **Tokens grow** from one lease of a pipeline to the next. -/
def State.Monotone (s : State) : Prop :=
  s.stored.Pairwise (fun x y => x.pipelineId = y.pipelineId → x.fencingToken < y.fencingToken)

/-- **Tokens grow as far as they can**: where they are exact, and while the fencing key has
not expired, which it never has without a time to live. -/
def State.Ordered (fencingKeyTtl : ℕ) (s : State) : Prop :=
  s.stored.Pairwise (fun x y => x.pipelineId = y.pipelineId →
    fencingKeyTtl = 0 ∨ x.epoch = y.epoch →
    y.fencingToken < 2 ^ 53 → x.fencingToken < y.fencingToken)

/-- The lease a token was issued for. -/
def Stored.ofIssue (x : Issue) : Stored := ⟨x.pipelineId, x.epoch, LuaNumber.tonumber x.count⟩

/-- **Every token issued is that of a lease**, and no key expires without a time to live. -/
structure State.Sound (fencingKeyTtl : ℕ) (s : State) : Prop where
  stored : s.stored = s.keys.issued.map Stored.ofIssue
  permanent : fencingKeyTtl = 0 → s.keys.Permanent

variable {s} {t : State} {fencingKeyTtl : ℕ}

theorem State.Sound.acquire (h : s.Sound fencingKeyTtl) (w a p : String) (n : ℕ) :
    (acquireScript s fencingKeyTtl w a p n).2.Sound fencingKeyTtl := by
  unfold acquireScript
  split
  next => exact h
  next =>
    have hissued : (if 0 < fencingKeyTtl then (s.keys.incr p).limit p
        else s.keys.incr p).issued = s.keys.issued ++ [s.keys.issue p] := by
      split
      next => exact FencingKeys.issued_limit _ p
      next => rfl
    refine ⟨?_, fun hzero => ?_⟩
    · show s.stored ++ [_] = (ite _ _ _ : FencingKeys).issued.map _
      rw [hissued, h.stored, List.map_append]
      rfl
    · show (ite _ _ _ : FencingKeys).Permanent
      rw [if_neg (by omega)]
      exact (h.permanent hzero).incr p

/-- **One step keeps the invariant.** -/
theorem State.Sound.step (h : s.Sound fencingKeyTtl) {e : Event}
    (hs : PrimaryLeases.step fencingKeyTtl s e = some t) : t.Sound fencingKeyTtl := by
  cases e with
  | acquire w a p n => exact Option.some.inj hs ▸ h.acquire w a p n
  | release w p token =>
    cases hs
    unfold releaseScript
    split
    next => exact h
    next =>
      split
      next => exact ⟨h.stored, h.permanent⟩
      next => exact h
  | renew w p token =>
    cases hs
    unfold renewScript
    split
    next => exact h
    next =>
      split
      next => exact h
      next => exact h
  | expired p =>
    cases hs
    exact ⟨h.stored, h.permanent⟩
  | fencingKeyExpired p =>
    obtain ⟨keys, hlapse, rfl⟩ := Option.map_eq_some_iff.1 hs
    refine ⟨?_, fun hzero => ?_⟩
    · show s.stored = keys.issued.map _
      rw [FencingKeys.issued_lapse hlapse]
      exact h.stored
    · rw [(h.permanent hzero).lapse_eq_none p] at hlapse
      cases hlapse

/-- A count of fifty-three bits is exact as a token. -/
theorem tonumber_eq_self {n : ℕ} (h : n < 2 ^ 53) : LuaNumber.tonumber n = n :=
  LuaNumber.roundTo_eq_self (Nat.log_lt_of_lt_pow' (by omega) h)

/-- And a token of fifty-three bits is an exact count. -/
theorem lt_of_tonumber_lt {n : ℕ} (h : LuaNumber.tonumber n < 2 ^ 53) : n < 2 ^ 53 := by
  by_contra hge
  have hn : n ≠ 0 := by omega
  have hlog : 53 ≤ Nat.log 2 n := Nat.le_log_of_pow_le (by omega) (by omega)
  have hle : 2 ^ Nat.log 2 n ≤ LuaNumber.tonumber n :=
    LuaNumber.pow_log_le_roundTo (by omega) (by omega) hn
  exact absurd h (not_lt.2 ((Nat.pow_le_pow_right (by omega) hlog).trans hle))

theorem State.Sound.ordered (h : s.Sound fencingKeyTtl) : s.Ordered fencingKeyTtl := by
  unfold State.Ordered
  rw [h.stored, List.pairwise_map]
  refine s.keys.law.ordered.imp_of_mem ?_
  intro x y hx hy hbelow hp hepoch hlt
  have hepoch : x.epoch = y.epoch := by
    rcases hepoch with hzero | hepoch
    · rw [(h.permanent hzero).epoch_eq hx, (h.permanent hzero).epoch_eq hy]
    · exact hepoch
  have hcount : x.count < y.count := hbelow hp hepoch
  have hy : y.count < 2 ^ 53 := lt_of_tonumber_lt hlt
  show LuaNumber.tonumber x.count < LuaNumber.tonumber y.count
  rw [tonumber_eq_self hy, tonumber_eq_self (hcount.trans hy)]
  exact hcount

theorem State.sound_init (fencingKeyTtl : ℕ) : State.init.Sound fencingKeyTtl :=
  ⟨rfl, fun _ => FencingKeys.permanent_empty⟩

/-- **On a single Redis tokens grow as far as they can**, in every run: those issued in the order of
the increments, and those of the leases, which they are, from one lease to the next. -/
theorem allStates_ordered (fencingKeyTtl : ℕ) (es : List Event) :
    AllStates (step fencingKeyTtl)
      (fun s => s.keys.Grows fencingKeyTtl ∧ s.stored = s.keys.issued.map Stored.ofIssue
        ∧ s.Ordered fencingKeyTtl) State.init es :=
  (allStates_of_invariant (fun _ _ _ h hs => State.Sound.step h hs)
    (State.sound_init fencingKeyTtl) es).mono
    (fun _ h => ⟨FencingKeys.grows h.permanent, h.stored, h.ordered⟩)

end PrimaryLeases

/-! ## The attempts of Redlock stay who they are -/

namespace Redlock

variable {keyPrefix : String} {s t : State}

/-- Every attempt that there is was there, as the same attempt. -/
def Keeps (s t : State) : Prop :=
  s.tasks.length ≤ t.tasks.length
    ∧ ∀ (i : ℕ) (u' : Task), t.tasks[i]? = some u' → u'.method = .tryAcquire →
      ∃ u, s.tasks[i]? = some u ∧ u.Same u'

theorem keeps_of_eq (h : t.tasks = s.tasks) : Keeps s t := by
  refine ⟨(congrArg List.length h).ge, fun i u hu _ => ⟨u, ?_, rfl, rfl, rfl, rfl⟩⟩
  rw [← h]
  exact hu

theorem keeps_setTask {i : ℕ} {u u' : Task} (hu : s.tasks[i]? = some u) (hsame : u.Same u') :
    Keeps s (s.setTask i u') := by
  refine ⟨List.length_set.ge, fun j v hv _ => ?_⟩
  rcases eq_or_of_getElem?_set hv with ⟨rfl, rfl⟩ | ⟨_, hv⟩
  · exact ⟨u, hu, hsame⟩
  · exact ⟨v, hv, rfl, rfl, rfl, rfl⟩

theorem keeps_start {u : Task} (hu : u.method ≠ .tryAcquire) : Keeps s (s.start u) := by
  refine ⟨?_, fun j v hv hmethod => ?_⟩
  · show s.tasks.length ≤ (s.tasks ++ [u]).length
    rw [List.length_append]
    exact Nat.le_add_right _ _
  · rcases eq_or_of_getElem?_concat hv with hv | ⟨_, rfl⟩
    · exact ⟨v, hv, rfl, rfl, rfl, rfl⟩
    · exact absurd hmethod hu

theorem Keeps.trans {u : State} (h : Keeps s t) (h' : Keeps t u) : Keeps s u := by
  refine ⟨h.1.trans h'.1, fun i v hv hmethod => ?_⟩
  obtain ⟨v', hv', hsame⟩ := h'.2 i v hv hmethod
  obtain ⟨v'', hv'', hsame'⟩ := h.2 i v' hv' (hsame.1 ▸ hmethod)
  refine ⟨v'', hv'', ?_, ?_, ?_, ?_⟩
  · exact hsame.1.trans hsame'.1
  · exact hsame.2.1.trans hsame'.2.1
  · exact hsame.2.2.1.trans hsame'.2.2.1
  · exact hsame.2.2.2.trans hsame'.2.2.2

theorem keeps_conclude {i : ℕ} {u : Task} (hu : s.tasks[i]? = some u) (indices : Finset ℕ)
    (valid : Bool) : Keeps s (s.conclude i u indices valid) := by
  have hsame : ∀ u' : Task, u' = u.returns (some true) ∨ u' = u.releaseIndices indices →
      u.Same u' := by
    rintro u' (rfl | rfl)
    · exact ⟨rfl, rfl, rfl, rfl⟩
    · exact ⟨rfl, rfl, rfl, rfl⟩
  unfold State.conclude
  split
  next =>
    have hkeep : Keeps s (s.keepLease u.worker u.lease indices) := keeps_of_eq rfl
    exact hkeep.trans (keeps_setTask hu (hsame _ (.inl rfl)))
  next => exact keeps_setTask hu (hsame _ (.inr rfl))

theorem keeps_resume {i : ℕ} {u : Task} (hu : s.tasks[i]? = some u) {valid : Bool}
    (hs : s.resume i u valid = some t) : Keeps s t := by
  have hreturns : ∀ value, u.Same (u.returns value) := fun _ => ⟨rfl, rfl, rfl, rfl⟩
  unfold State.resume at hs
  split at hs
  case h_1 | h_2 =>
    cases hs
    exact keeps_conclude hu _ valid
  case h_3 | h_5 =>
    cases hs
    exact keeps_setTask hu (hreturns _)
  case h_4 =>
    cases hs
    have hdiscard : Keeps s (s.discardLease u.worker u.lease.pipelineId) := keeps_of_eq rfl
    exact hdiscard.trans (keeps_setTask hu (hreturns _))
  all_goals cases hs

/-- **A step that is no attempt keeps the attempts.** -/
theorem keeps_step {e : Event} (he : ∀ w p n a token, e ≠ .tryAcquire w p n a token)
    (hs : step keyPrefix s e = some t) : Keeps s t := by
  have hstatus : ∀ (u : Task) j c status, u.Same (u.setStatus j c status) :=
    fun _ _ _ _ => ⟨rfl, rfl, rfl, rfl⟩
  cases e with
  | tryAcquire w p n a token => exact absurd rfl (he w p n a token)
  | renew worker p =>
    obtain ⟨w, _, rfl⟩ := Option.map_eq_some_iff.1 hs
    unfold State.renew
    split
    next => exact keeps_of_eq rfl
    next => exact keeps_start nofun
  | release worker p =>
    obtain ⟨w, _, rfl⟩ := Option.map_eq_some_iff.1 hs
    have hdiscard : Keeps s (s.discardLease worker p) := keeps_of_eq rfl
    unfold State.release
    split
    next => exact hdiscard
    next => exact hdiscard.trans (keeps_start nofun)
  | discarded worker p =>
    cases hs
    exact keeps_of_eq rfl
  | executed i j =>
    obtain ⟨u, hu, hs⟩ := Option.bind_eq_some_iff.1 hs
    obtain ⟨c, _, hs⟩ := Option.bind_eq_some_iff.1 hs
    obtain ⟨node, _, hs⟩ := Option.bind_eq_some_iff.1 hs
    unfold State.execute at hs
    split at hs
    case h_1 | h_2 =>
      cases hs
      exact (keeps_setTask hu (hstatus u j c _)).trans (keeps_of_eq rfl)
    all_goals cases hs
  | answered i j =>
    obtain ⟨u, hu, hs⟩ := Option.bind_eq_some_iff.1 hs
    obtain ⟨c, _, hs⟩ := Option.bind_eq_some_iff.1 hs
    unfold State.answer at hs
    split at hs
    case h_1 =>
      cases hs
      exact keeps_setTask hu (hstatus u j c _)
    all_goals cases hs
  | lost i j =>
    obtain ⟨u, hu, hs⟩ := Option.bind_eq_some_iff.1 hs
    obtain ⟨c, _, hs⟩ := Option.bind_eq_some_iff.1 hs
    unfold State.lose at hs
    split at hs
    next => cases hs
    next =>
      cases hs
      exact keeps_setTask hu (hstatus u j c _)
  | resumed i valid =>
    obtain ⟨u, hu, hs⟩ := Option.bind_eq_some_iff.1 hs
    split at hs
    next => exact keeps_resume hu hs
    next => cases hs
  | raised i =>
    obtain ⟨u, hu, hs⟩ := Option.bind_eq_some_iff.1 hs
    split at hs
    next =>
      cases hs
      have hsame : u.Same u.raises := ⟨rfl, rfl, rfl, rfl⟩
      exact keeps_setTask hu hsame
    next => cases hs
  | expired k key =>
    obtain ⟨node, _, hs⟩ := Option.bind_eq_some_iff.1 hs
    obtain ⟨node', _, rfl⟩ := Option.map_eq_some_iff.1 hs
    exact keeps_of_eq rfl

end Redlock

/-! ## Redlock -/

namespace FencedRedlock

/-- **A token reserved on the primary** for an attempt, with the place it has among the tokens
issued, and the tasks there were. -/
structure Reservation where
  worker : ℕ
  pipelineId : String
  runNumber : ℕ
  acquiredAt : String
  fencingToken : ℕ
  epoch : ℕ
  /-- the fencing key has been given its time to live, if there is one -/
  limited : Bool
  position : ℕ
  since : ℕ

/-- Redlock, and the primary that its tokens come from. -/
structure State where
  redlock : Redlock.State
  keys : FencingKeys
  /-- the attempts that have a token, and have not sent their requests yet -/
  reserved : List Reservation
  /-- the attempts that have sent their requests, with their tasks -/
  launched : List (ℕ × Reservation)

def State.init (nodes : ℕ) (workerIds : List String) : State :=
  ⟨.init nodes workerIds, .empty, [], []⟩

inductive Event where
  /-- the primary executes `INCR` for `_reserve_fencing_token` -/
  | reserve (worker : ℕ) (pipelineId : String) (runNumber : ℕ) (acquiredAt : String)
  /-- and `EXPIRE` -/
  | limited (reservation : ℕ)
  /-- the attempt goes on with its token, and sends its requests to the nodes -/
  | launch (reservation : ℕ)
  /-- anything else that Redlock does -/
  | redlock (e : Redlock.Event)
  | fencingKeyExpired (pipelineId : String)

variable (keyPrefix : String) (fencingKeyTtl : ℕ)

def State.reserve (s : State) (worker : ℕ) (pipelineId : String) (runNumber : ℕ)
    (acquiredAt : String) : State :=
  { s with
    keys := s.keys.incr pipelineId
    reserved := s.reserved ++ [
      { worker := worker
        pipelineId := pipelineId
        runNumber := runNumber
        acquiredAt := acquiredAt
        fencingToken := (s.keys.next pipelineId).count
        epoch := s.keys.epoch pipelineId
        limited := fencingKeyTtl = 0
        position := s.keys.issued.length
        since := s.redlock.tasks.length }] }

def State.launch (s : State) (i : ℕ) (r : Reservation) : Option State :=
  if r.limited then
    (Redlock.step keyPrefix s.redlock
      (.tryAcquire r.worker r.pipelineId r.runNumber r.acquiredAt r.fencingToken)).map
      (fun redlock =>
        { s with
          redlock := redlock
          reserved := s.reserved.eraseIdx i
          launched := s.launched ++ [(s.redlock.tasks.length, r)] })
  else none

/-- **One event.** -/
def step (s : State) : Event → Option State
  | .reserve worker p n a => some (s.reserve fencingKeyTtl worker p n a)
  | .limited i => (s.reserved[i]?).bind (fun r =>
      if r.limited then none else some
        { s with
          keys := s.keys.limit r.pipelineId
          reserved := s.reserved.set i { r with limited := true } })
  | .launch i => (s.reserved[i]?).bind (s.launch keyPrefix i)
  | .redlock (.tryAcquire _ _ _ _ _) => none
  | .redlock e => (Redlock.step keyPrefix s.redlock e).map (fun r => { s with redlock := r })
  | .fencingKeyExpired p => (s.keys.lapse p).map (fun keys => { s with keys := keys })

/-! ### The law -/

/-- **Tokens grow** from one successful attempt to one whose lease was stored after the lease
of the other gave way, on any node. -/
def State.Monotone (s : State) : Prop :=
  ∀ t ∈ s.redlock.tasks, ∀ u ∈ s.redlock.tasks, t.method = .tryAcquire →
    t.pc = .returned (some true) → u.method = .tryAcquire → u.pc = .returned (some true) →
    t.lease.pipelineId = u.lease.pipelineId → ∀ node ∈ s.redlock.nodes,
      node.GaveWay (Redlock.State.leaseKey keyPrefix t.lease.pipelineId) t.attempt u.attempt →
      t.lease.fencingToken < u.lease.fencingToken

/-- **Tokens grow from an attempt to one that reserves its token later** than the other one
has sent its requests, if the fencing key has not expired between the two reservations, which
it never has without a time to live. -/
def State.Ordered (s : State) : Prop :=
  ∀ (i j : ℕ) (t u : Redlock.Task), s.redlock.tasks[i]? = some t →
    s.redlock.tasks[j]? = some u → t.method = .tryAcquire → u.method = .tryAcquire →
    t.lease.pipelineId = u.lease.pipelineId →
    ∃ a b, (i, a) ∈ s.launched ∧ (j, b) ∈ s.launched
      ∧ (fencingKeyTtl = 0 ∨ a.epoch = b.epoch → i < b.since →
        t.lease.fencingToken < u.lease.fencingToken)

/-! ### The invariant -/

def State.reservations (s : State) : List Reservation := s.reserved ++ s.launched.map Prod.snd

/-- **The token of an attempt was issued**, and this is its place. -/
def Reservation.IsIssued (s : State) (r : Reservation) : Prop :=
  s.keys.issued[r.position]? = some ⟨r.pipelineId, r.epoch, r.fencingToken⟩

/-- **What a reservation says is so**: its token was issued at its place, after those of the
attempts whose tasks were there. -/
structure Reservation.Sound (s : State) (r : Reservation) : Prop where
  issued : r.IsIssued s
  since : r.since ≤ s.redlock.tasks.length
  order : ∀ x ∈ s.launched, x.1 < r.since → x.2.position < r.position

/-- **The invariant of a run.** -/
structure State.Sound (s : State) : Prop where
  reservations : ∀ r ∈ s.reservations, r.Sound s
  permanent : fencingKeyTtl = 0 → s.keys.Permanent ∧ ∀ r ∈ s.reserved, r.limited = true
  tasks : ∀ (i : ℕ) (t : Redlock.Task), s.redlock.tasks[i]? = some t → t.method = .tryAcquire →
    ∃ a, (i, a) ∈ s.launched ∧ t.lease.pipelineId = a.pipelineId
      ∧ t.lease.fencingToken = a.fencingToken

theorem State.mem_reservations {s : State} {r : Reservation} :
    r ∈ s.reservations ↔ r ∈ s.reserved ∨ ∃ x ∈ s.launched, x.2 = r := by
  unfold reservations
  rw [List.mem_append, List.mem_map]

variable {keyPrefix : String} {fencingKeyTtl : ℕ} {s t : State}

theorem State.Sound.ordered (h : s.Sound fencingKeyTtl) : s.Ordered fencingKeyTtl := by
  intro i j t u ht hu hmethod hmethod' hp
  obtain ⟨a, ha, hpa, htoken⟩ := h.tasks i t ht hmethod
  obtain ⟨b, hb, hpb, htoken'⟩ := h.tasks j u hu hmethod'
  refine ⟨a, b, ha, hb, fun hepoch hsince => ?_⟩
  have hra := h.reservations a (State.mem_reservations.2 (.inr ⟨(i, a), ha, rfl⟩))
  have hrb := h.reservations b (State.mem_reservations.2 (.inr ⟨(j, b), hb, rfl⟩))
  have hepoch : a.epoch = b.epoch := by
    rcases hepoch with hzero | hepoch
    · have hkeys := (h.permanent hzero).1
      have hea := hkeys.epoch_eq (List.mem_of_getElem? hra.issued)
      have heb := hkeys.epoch_eq (List.mem_of_getElem? hrb.issued)
      exact hea.trans heb.symm
    · exact hepoch
  have hlt := FencingKeys.lt_of_lt hra.issued hrb.issued (hrb.order (i, a) ha hsince)
    (by rw [← hpa, hp, hpb]) hepoch
  rw [htoken, htoken']
  exact hlt

theorem Reservation.Sound.lt_length {r : Reservation} (h : r.Sound s) :
    r.position < s.keys.issued.length :=
  (List.getElem?_eq_some_iff.1 h.issued).1

/-- More tokens, more tasks and more attempts that are launched after all reservations. -/
theorem Reservation.Sound.extends {r : Reservation} (h : r.Sound s)
    (hissued : s.keys.issued <+: t.keys.issued)
    (htasks : s.redlock.tasks.length ≤ t.redlock.tasks.length)
    (hlaunched : ∀ x ∈ t.launched, x ∈ s.launched ∨ s.redlock.tasks.length ≤ x.1) :
    r.Sound t := by
  obtain ⟨more, hmore⟩ := hissued
  refine ⟨?_, h.since.trans htasks, fun x hx hlt => ?_⟩
  · unfold Reservation.IsIssued
    rw [← hmore, List.getElem?_append_left h.lt_length]
    exact h.issued
  · rcases hlaunched x hx with hx | hge
    · exact h.order x hx hlt
    · exact absurd (hlt.trans_le h.since) (not_lt.2 hge)

theorem State.Sound.reserve (h : s.Sound fencingKeyTtl) (worker : ℕ) (p : String) (n : ℕ)
    (a : String) : (s.reserve fencingKeyTtl worker p n a).Sound fencingKeyTtl := by
  have hextends : ∀ r : Reservation, r.Sound s → r.Sound (s.reserve fencingKeyTtl worker p n a) :=
    fun r hr => hr.extends (List.prefix_append _ _) le_rfl (fun _ hx => .inl hx)
  refine ⟨fun r hr => ?_, fun hzero => ?_, h.tasks⟩
  rotate_left
  · obtain ⟨hkeys, hlimited⟩ := h.permanent hzero
    refine ⟨hkeys.incr p, fun r hr => ?_⟩
    rcases List.mem_append.1 hr with hr | hr
    · exact hlimited r hr
    · rw [List.mem_singleton.1 hr]
      exact decide_eq_true hzero
  rcases State.mem_reservations.1 hr with hr | hr
  · rcases List.mem_append.1 hr with hr | hr
    · exact hextends r (h.reservations r (State.mem_reservations.2 (.inl hr)))
    · -- the new one comes after all attempts that are launched
      rw [List.mem_singleton.1 hr]
      refine ⟨?_, le_rfl, fun x hx _ => ?_⟩
      · show (s.keys.issued ++ [_])[s.keys.issued.length]? = _
        rw [List.getElem?_append_right le_rfl, Nat.sub_self]
        rfl
      · exact (h.reservations x.2 (State.mem_reservations.2 (.inr ⟨x, hx, rfl⟩))).lt_length
  · exact hextends r (h.reservations r (State.mem_reservations.2 (.inr hr)))

theorem State.Sound.launch (h : s.Sound fencingKeyTtl) {i : ℕ} {r : Reservation}
    (hr : s.reserved[i]? = some r) (hs : s.launch keyPrefix i r = some t) :
    t.Sound fencingKeyTtl := by
  unfold State.launch at hs
  split at hs
  next =>
    obtain ⟨redlock, hstep, rfl⟩ := Option.map_eq_some_iff.1 hs
    obtain ⟨w, _, rfl⟩ := Option.map_eq_some_iff.1 hstep
    refine ⟨fun q hq => ?_, fun hzero => ?_, fun j u hu hmethod => ?_⟩
    · have hold : q ∈ s.reservations := by
        refine State.mem_reservations.2 ?_
        rcases State.mem_reservations.1 hq with hq | ⟨x, hx, rfl⟩
        · exact .inl (List.mem_of_mem_eraseIdx hq)
        · rcases List.mem_append.1 hx with hx | hx
          · exact .inr ⟨x, hx, rfl⟩
          · rw [List.mem_singleton.1 hx]
            exact .inl (List.mem_of_getElem? hr)
      refine (h.reservations q hold).extends (List.prefix_refl _) ?_ (fun x hx => ?_)
      · show s.redlock.tasks.length ≤ (s.redlock.tasks ++ [_]).length
        rw [List.length_append]
        exact Nat.le_add_right _ _
      · rcases List.mem_append.1 hx with hx | hx
        · exact .inl hx
        · rw [List.mem_singleton.1 hx]
          exact .inr le_rfl
    · obtain ⟨hkeys, hlimited⟩ := h.permanent hzero
      exact ⟨hkeys, fun q hq => hlimited q (List.mem_of_mem_eraseIdx hq)⟩
    · rcases Redlock.eq_or_of_getElem?_concat hu with hu | ⟨rfl, rfl⟩
      · obtain ⟨a, ha, hp, htoken⟩ := h.tasks j u hu hmethod
        exact ⟨a, List.mem_append_left _ ha, hp, htoken⟩
      · exact ⟨r, List.mem_append_right _ (List.mem_singleton_self _), rfl, rfl⟩
  next => cases hs

/-- **One step keeps the invariant.** -/
theorem State.Sound.step (h : s.Sound fencingKeyTtl) {e : Event}
    (hs : FencedRedlock.step keyPrefix fencingKeyTtl s e = some t) : t.Sound fencingKeyTtl := by
  cases e with
  | reserve worker p n a => exact Option.some.inj hs ▸ h.reserve worker p n a
  | limited i =>
    obtain ⟨r, hr, hs⟩ := Option.bind_eq_some_iff.1 hs
    split at hs
    next => cases hs
    next hnot =>
      cases hs
      have hissued : (s.keys.limit r.pipelineId).issued = s.keys.issued :=
        FencingKeys.issued_limit _ _
      have hkeys : ∀ (reserved : List Reservation) (q : Reservation), q.Sound s →
          q.Sound { s with keys := s.keys.limit r.pipelineId, reserved := reserved } :=
        fun _ q hq => hq.extends (by rw [hissued]) le_rfl (fun _ hx => .inl hx)
      refine ⟨fun q hq => ?_, fun hzero => ?_, h.tasks⟩
      rotate_left
      · exact absurd ((h.permanent hzero).2 r (List.mem_of_getElem? hr)) hnot
      rcases State.mem_reservations.1 hq with hq | hq
      · rcases List.mem_or_eq_of_mem_set hq with hq | rfl
        · exact hkeys _ q (h.reservations q (State.mem_reservations.2 (.inl hq)))
        · have hsame := hkeys s.reserved r (h.reservations r
            (State.mem_reservations.2 (.inl (List.mem_of_getElem? hr))))
          exact ⟨hsame.issued, hsame.since, hsame.order⟩
      · exact hkeys _ q (h.reservations q (State.mem_reservations.2 (.inr hq)))
  | launch i =>
    obtain ⟨r, hr, hs⟩ := Option.bind_eq_some_iff.1 hs
    exact h.launch hr hs
  | redlock e =>
    have hkeeps : ∃ redlock, Redlock.Keeps s.redlock redlock
        ∧ t = { s with redlock := redlock } := by
      unfold FencedRedlock.step at hs
      split at hs
      case h_4 => cases hs
      case h_5 e' hne heq =>
        cases heq
        obtain ⟨redlock, hstep, rfl⟩ := Option.map_eq_some_iff.1 hs
        exact ⟨redlock, Redlock.keeps_step (fun w p n a token h => hne w p n a token h) hstep, rfl⟩
      all_goals contradiction
    obtain ⟨redlock, ⟨hlength, hsame⟩, rfl⟩ := hkeeps
    refine ⟨fun r hr => (h.reservations r hr).extends (List.prefix_refl _) hlength
      (fun _ hx => .inl hx), h.permanent, fun i u' hu' hmethod => ?_⟩
    obtain ⟨u, hu, hmethod', hlease, _⟩ := hsame i u' hu' hmethod
    rw [hlease]
    exact h.tasks i u hu (hmethod' ▸ hmethod)
  | fencingKeyExpired p =>
    obtain ⟨keys, hlapse, rfl⟩ := Option.map_eq_some_iff.1 hs
    have hissued := FencingKeys.issued_lapse hlapse
    refine ⟨fun r hr => (h.reservations r hr).extends (by rw [hissued]) le_rfl
      (fun _ hx => .inl hx), fun hzero => ?_, h.tasks⟩
    rw [(h.permanent hzero).1.lapse_eq_none p] at hlapse
    cases hlapse

theorem State.sound_init (nodes : ℕ) (workerIds : List String) :
    (State.init nodes workerIds).Sound fencingKeyTtl :=
  ⟨nofun, fun _ => ⟨FencingKeys.permanent_empty, nofun⟩, nofun⟩

/-- **With Redlock tokens grow in the order of their reservations**, in every run, and each attempt
has one that was issued. -/
theorem allStates_ordered (keyPrefix : String) (fencingKeyTtl nodes : ℕ)
    (workerIds : List String) (es : List Event) :
    AllStates (step keyPrefix fencingKeyTtl)
      (fun s => s.keys.Grows fencingKeyTtl ∧ (∀ r ∈ s.reservations, r.IsIssued s)
        ∧ s.Ordered fencingKeyTtl) (State.init nodes workerIds) es :=
  (allStates_of_invariant (fun _ _ _ h hs => State.Sound.step h hs)
    (State.sound_init nodes workerIds) es).mono
    (fun _ h => ⟨FencingKeys.grows (fun hzero => (h.permanent hzero).1),
      fun r hr => (h.reservations r hr).issued, h.ordered⟩)

end FencedRedlock

/-! ## Both stores -/

/-- **Fencing tokens grow as far as they can**: in the order in which the counter is incremented, on
a single Redis so from one lease to the next, and with Redlock from an attempt to one that reserves
its token later. -/
theorem fencingTokens_ordered (keyPrefix : String) (fencingKeyTtl nodes : ℕ)
    (workerIds : List String) (es : List PrimaryLeases.Event) (fs : List FencedRedlock.Event) :
    AllStates (PrimaryLeases.step fencingKeyTtl)
        (fun s => s.keys.Grows fencingKeyTtl
          ∧ s.stored = s.keys.issued.map PrimaryLeases.Stored.ofIssue ∧ s.Ordered fencingKeyTtl)
        PrimaryLeases.State.init es
      ∧ AllStates (FencedRedlock.step keyPrefix fencingKeyTtl)
        (fun s => s.keys.Grows fencingKeyTtl ∧ (∀ r ∈ s.reservations, r.IsIssued s)
          ∧ s.Ordered fencingKeyTtl)
        (FencedRedlock.State.init nodes workerIds) fs :=
  ⟨PrimaryLeases.allStates_ordered fencingKeyTtl es,
    FencedRedlock.allStates_ordered keyPrefix fencingKeyTtl nodes workerIds fs⟩

instance : DecidablePred PrimaryLeases.State.Monotone := fun s =>
  inferInstanceAs (Decidable (s.stored.Pairwise _))

instance (keyPrefix : String) : DecidablePred (FencedRedlock.State.Monotone keyPrefix) := fun s =>
  inferInstanceAs (Decidable (∀ t ∈ s.redlock.tasks, ∀ u ∈ s.redlock.tasks, _ → _ → _ → _ → _ →
    ∀ node ∈ s.redlock.nodes, _ → _))

/-- **A later lease can have no larger token.** On a single Redis the fencing key has expired
between the two. With Redlock the first of two workers to reserve a token is the last to get
the lease. -/
theorem not_fencingTokens_monotone :
    ¬ AllStates (PrimaryLeases.step 60) PrimaryLeases.State.Monotone PrimaryLeases.State.init
        [.acquire "v" "t" "p" 1, .release "v" "p" 1, .fencingKeyExpired "p",
          .acquire "w" "u" "p" 1]
      ∧ ¬ AllStates (FencedRedlock.step "" 0) (FencedRedlock.State.Monotone "")
        (FencedRedlock.State.init 3 ["v", "w"])
        [.reserve 0 "p" 1 "t", .reserve 1 "p" 1 "u",
          .launch 1, .redlock (.executed 0 0), .redlock (.answered 0 0),
          .redlock (.executed 0 1), .redlock (.answered 0 1), .redlock (.executed 0 2),
          .redlock (.answered 0 2), .redlock (.resumed 0 true),
          .redlock (.release 1 "p"), .redlock (.executed 1 0), .redlock (.executed 1 1),
          .redlock (.executed 1 2),
          .launch 0, .redlock (.executed 2 0), .redlock (.answered 2 0),
          .redlock (.executed 2 1), .redlock (.answered 2 1), .redlock (.executed 2 2),
          .redlock (.answered 2 2), .redlock (.resumed 2 true)] := by
  decide +kernel

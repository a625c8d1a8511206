import Mathlib.Order.WithBot
import AgoraPlugins.Machine

/-!
# The Redis stream source

A consumer of a group reads a stream by two commands. `XREADGROUP` hands out entries that
have been delivered to nobody, from where the group is on; `XAUTOCLAIM` hands out entries
again that have been pending for long enough, whoever they had been delivered to, going
through the pending entries with a cursor. The source issues the second one only if it
has been given an idle time for it, and the first one with `>` always: the read of its own
history that the code provides for, `_resume_pending`, is never switched on.

A command is executed and answered, and the connection may fail between the two. The
entries are pending for the consumer from the first on, and what an abandoned command
hands out, now or later, nobody sees.

A run is one `stream()`, from wherever the group is: a resume has set it back, or forth,
to the message of a checkpoint. The ids of entries are those of Redis, or any others that
are in order.
-/

open Machine

namespace StreamSource

variable {Id : Type} [LinearOrder Id]

/-! ## The group -/

/-- An entry has been delivered, to this consumer or to another one, and has not been
acknowledged. -/
structure Delivery where
  mine : Bool
  time : ℕ
  deriving DecidableEq

/-- An entry of the stream, with what is pending of it. -/
structure Entry (Id : Type) where
  id : Id
  pending : Option Delivery

/-- **A stream with its group**, and the clock of the server. -/
structure Group (Id : Type) [LinearOrder Id] where
  entries : List (Entry Id)
  lastDelivered : WithBot Id
  consumers : ℕ
  now : ℕ
  sorted : (entries.map Entry.id).Pairwise (· < ·)

namespace Group

variable (g : Group Id)

def ids : List Id := g.entries.map Entry.id

/-- The entry is pending, for this consumer. -/
def Mine (id : Id) : Prop := ∃ e ∈ g.entries, e.id = id ∧ e.pending.any Delivery.mine = true

/-- The entry is pending, for anybody. -/
def Pending (id : Id) : Prop := ∃ e ∈ g.entries, e.id = id ∧ e.pending.isSome = true

/-- The entries are pending as this says. -/
def setPending (f : Entry Id → Option Delivery) : Group Id :=
  { g with
    entries := g.entries.map (fun e => { e with pending := f e })
    sorted := by
      rw [List.map_map]
      exact g.sorted }

/-- These entries are delivered now. -/
def assign (mine : Bool) (ids : List Id) : Group Id :=
  g.setPending (fun e => if e.id ∈ ids then some ⟨mine, g.now⟩ else e.pending)

/-- What `XREADGROUP` with `>` hands out. -/
def undelivered (count : ℕ) : List Id :=
  (g.ids.filter (fun id : Id => g.lastDelivered < (id : WithBot Id))).take count

/-- `XREADGROUP`. -/
def readGroup (mine : Bool) (count : ℕ) : Group Id :=
  { g.assign mine (g.undelivered count) with
    lastDelivered := (g.undelivered count).foldl (fun last id => max last id) g.lastDelivered }

/-- `XACK`. -/
def ack (id : Id) : Group Id := g.setPending (fun e => if e.id = id then none else e.pending)

/-- Another consumer claims an entry that is pending. -/
def claimElsewhere (id : Id) : Group Id :=
  g.setPending (fun e =>
    if e.id = id then e.pending.map (fun _ => ⟨false, g.now⟩) else e.pending)

/-- `XADD`, with an id beyond all others. -/
def add (id : Id) : Option (Group Id) :=
  if h : ∀ id' ∈ g.ids, id' < id then
    some { g with
      entries := g.entries ++ [⟨id, none⟩]
      sorted := by
        rw [List.map_append]
        exact List.pairwise_append.2 ⟨g.sorted, List.pairwise_singleton _ _,
          fun id' hid' b hb => List.mem_singleton.1 hb ▸ h id' hid'⟩ }
  else none

/-- The pending entries from the cursor on, each with its time. -/
def pendingFrom (cursor : WithBot Id) : List (Id × ℕ) :=
  g.entries.filterMap (fun e =>
    if cursor ≤ (e.id : WithBot Id) then e.pending.map (fun d => (e.id, d.time)) else none)

/-- The way of `XAUTOCLAIM` through the pending entries: what it claims, and where the next
one starts, from the beginning if it has come to the end. -/
def scan (now minIdle : ℕ) : ℕ → ℕ → List (Id × ℕ) → List Id × WithBot Id
  | _, _, [] => ([], ⊥)
  | attempts + 1, count + 1, (id, time) :: rest =>
    if time + minIdle ≤ now then
      (id :: (scan now minIdle attempts count rest).1, (scan now minIdle attempts count rest).2)
    else scan now minIdle attempts (count + 1) rest
  | 0, _, (id, _) :: _ => ([], id)
  | _, 0, (id, _) :: _ => ([], id)

/-- What `XAUTOCLAIM` answers. It looks at ten times as many entries as it may claim. -/
def claimable (minIdle count : ℕ) (cursor : WithBot Id) : List Id × WithBot Id :=
  scan g.now minIdle (10 * count) count (g.pendingFrom cursor)

end Group

/-! ## The source -/

/-- What the source is given, as `__init__` leaves it. -/
structure Config where
  batchSize : ℕ
  decodeResponses : Bool
  /-- the policy for what cannot be deserialised is `LOG_AND_CONTINUE` -/
  logAndContinue : Bool
  reclaimIdleMs : Option ℕ
  reclaimBatchSize : ℕ
  maxConsecutiveReclaimBatches : Option ℕ
  reclaimBatchSize_pos : 0 < reclaimBatchSize
  maxConsecutiveReclaimBatches_pos : ∀ n ∈ maxConsecutiveReclaimBatches, 0 < n

/-- A command of the read loop. -/
inductive Call (Id : Type) where
  | read
  | reclaim (cursor : WithBot Id)

/-- **Where the stream is.** A command under way has a reply once it is executed; the
entries in hand are those not yet taken up. -/
inductive Pc (Id : Type) where
  | idle
  | reclaiming (reply : Option (List Id × WithBot Id))
  | reading (reply : Option (List Id))
  | recovering (reclaim : Bool)
  | yielding (batch : List Id)
  | ended

/-- **The state of a run**: the group and the source. -/
structure State (Id : Type) [LinearOrder Id] where
  group : Group Id
  pc : Pc Id
  /-- `_client` is there -/
  client : Bool
  lastMessageId : WithBot Id
  reclaimCursor : WithBot Id
  consecutiveReclaimBatchCount : ℕ
  /-- commands whose caller has given up on them, and that may still be executed -/
  adrift : List (Call Id)
  /-- the entries the server has assigned to the consumer in this run -/
  assigned : List Id
  emitted : List Id
  dropped : List Id

/-- What can happen. -/
inductive Event (Id : Type) where
  /-- `stream()`, resuming from the message of a checkpoint if there is one -/
  | stream (resume : Option Id)
  /-- the server executes the command of the read loop, or one adrift -/
  | executed
  | executedAdrift (call : ℕ)
  | answered
  /-- the command raises: an error that is recovered from, or another one -/
  | raised (retryable : Bool)
  | recovered
  | notRecovered
  /-- the first entry in hand is taken up, and its fields can be deserialised or not -/
  | taken (readable : Bool)
  | exhausted
  /-- the stream ends between two commands -/
  | stopped
  /-- the flush of the acknowledgements loses the client, and builds a new one -/
  | clientGone
  | clientBuilt
  /-- `XACK`, of any consumer -/
  | acknowledged (id : Id)
  | added (id : Id)
  | readElsewhere (count : ℕ)
  | claimedElsewhere (id : Id)
  | elapsed (ms : ℕ)

namespace State

/-- A source that has been opened, on a group wherever it is. -/
def init (group : Group Id) : State Id :=
  ⟨group, .idle, true, ⊥, ⊥, 0, [], [], [], []⟩

variable (cfg : Config) (s : State Id)

def withPc (pc : Pc Id) : State Id := { s with pc := pc }

/-- The `XREADGROUP` of the loop. Without a client the stream ends: the error of
`_require_client` is not one of the connection. -/
def read : State Id := if s.client then s.withPc (.reading none) else s.withPc .ended

/-- The top of the loop: `should_read_reclaimed_messages`, and the head of
`read_reclaimed_messages`. -/
def loop : State Id :=
  match cfg.reclaimIdleMs with
  | none => { s with consecutiveReclaimBatchCount := 0 }.read
  | some _ =>
    if cfg.maxConsecutiveReclaimBatches.all (fun n => s.consecutiveReclaimBatchCount < n) then
      if s.client then s.withPc (.reclaiming none)
      else { s with consecutiveReclaimBatchCount := 0 }.read
    else { s with consecutiveReclaimBatchCount := 0 }.read

/-- `XGROUP SETID`. -/
def setGroup (id : Id) : State Id := { s with group := { s.group with lastDelivered := id } }

/-- `stream`: `apply_resume_checkpoint`, and into the loop. -/
def stream (resume : Option Id) : Pc Id → Option (State Id)
  | .idle => some (match resume with
    | none => s.loop cfg
    | some id => if 1 < s.group.consumers then s.withPc .ended else (s.setGroup id).loop cfg)
  | _ => none

/-- These entries are assigned to the consumer. -/
def assign (group : Group Id) (ids : List Id) : State Id :=
  { s with group := group, assigned := s.assigned ++ ids }

/-- The server executes an `XREADGROUP` of this consumer. -/
def executeRead : State Id :=
  s.assign (s.group.readGroup true cfg.batchSize) (s.group.undelivered cfg.batchSize)

/-- What an `XAUTOCLAIM` of this consumer answers now. -/
def claimable (cursor : WithBot Id) : List Id × WithBot Id :=
  s.group.claimable (cfg.reclaimIdleMs.getD 0) cfg.reclaimBatchSize cursor

/-- The server executes an `XAUTOCLAIM` of this consumer. -/
def executeReclaim (cursor : WithBot Id) : State Id :=
  s.assign (s.group.assign true (s.claimable cfg cursor).1) (s.claimable cfg cursor).1

/-- **The server executes** the command that the source has sent. -/
def execute : Pc Id → Option (State Id)
  | .reading none => some
      ((s.executeRead cfg).withPc (.reading (some (s.group.undelivered cfg.batchSize))))
  | .reclaiming none => some
      ((s.executeReclaim cfg s.reclaimCursor).withPc
        (.reclaiming (some (s.claimable cfg s.reclaimCursor))))
  | _ => none

def executeCall : Call Id → State Id
  | .read => s.executeRead cfg
  | .reclaim cursor => s.executeReclaim cfg cursor

/-- `parse_xautoclaim_response`: a cursor that is not a `str` is none. -/
def parsedCursor (cursor : WithBot Id) : WithBot Id := if cfg.decodeResponses then cursor else ⊥

/-- The reply comes in. -/
def answer : Pc Id → Option (State Id)
  | .reading (some []) => some (s.loop cfg)
  | .reading (some (id :: rest)) => some (s.withPc (.yielding (id :: rest)))
  | .reclaiming (some ([], cursor)) => some
      { s with reclaimCursor := parsedCursor cfg cursor, consecutiveReclaimBatchCount := 0 }.read
  | .reclaiming (some (id :: rest, cursor)) => some
      { s.withPc (.yielding (id :: rest)) with
        reclaimCursor := parsedCursor cfg cursor
        consecutiveReclaimBatchCount := s.consecutiveReclaimBatchCount + 1 }
  | _ => none

/-- The command may still be executed, if it has not been. -/
def cutLoose (call : Call Id) (executed : Bool) : State Id :=
  if executed then s else { s with adrift := s.adrift ++ [call] }

/-- The command raises. A recovery begins without a client. -/
def fail (retryable : Bool) : Pc Id → Option (State Id)
  | .reading reply => some
      (if retryable then
        { (s.cutLoose .read reply.isSome).withPc (.recovering false) with client := false }
      else (s.cutLoose .read reply.isSome).withPc .ended)
  | .reclaiming reply => some
      (if retryable then
        { (s.cutLoose (.reclaim s.reclaimCursor) reply.isSome).withPc (.recovering true) with
          client := false }
      else (s.cutLoose (.reclaim s.reclaimCursor) reply.isSome).withPc .ended)
  | _ => none

/-- The new client is there. -/
def recover : Pc Id → Option (State Id)
  | .recovering true => some
      { s with client := true, consecutiveReclaimBatchCount := 0 }.read
  | .recovering false => some ({ s with client := true }.loop cfg)
  | _ => none

/-- There is no new client. -/
def giveUp : Pc Id → Option (State Id)
  | .recovering _ => some (s.withPc .ended)
  | _ => none

/-- **The first entry in hand is taken up**, `_last_message_id` first. -/
def take (readable : Bool) : Pc Id → Option (State Id)
  | .yielding (id :: rest) => some
      (if readable then
        { s.withPc (.yielding rest) with lastMessageId := id, emitted := s.emitted ++ [id] }
      else if cfg.logAndContinue then
        { s.withPc (.yielding rest) with lastMessageId := id, dropped := s.dropped ++ [id] }
      else { s.withPc .ended with lastMessageId := id })
  | _ => none

/-- All entries in hand have been taken up. -/
def exhaust : Pc Id → Option (State Id)
  | .yielding [] => some (s.loop cfg)
  | _ => none

/-- What handles an entry raises, or the generator is closed. -/
def stop : Pc Id → Option (State Id)
  | .yielding _ => some (s.withPc .ended)
  | _ => none

end State

variable (cfg : Config)

/-- **One event.** -/
def step (s : State Id) : Event Id → Option (State Id)
  | .stream resume => s.stream cfg resume s.pc
  | .executed => s.execute cfg s.pc
  | .executedAdrift i => (s.adrift[i]?).map (fun call =>
      { s.executeCall cfg call with adrift := s.adrift.eraseIdx i })
  | .answered => s.answer cfg s.pc
  | .raised retryable => s.fail retryable s.pc
  | .recovered => s.recover cfg s.pc
  | .notRecovered => s.giveUp s.pc
  | .taken readable => s.take cfg readable s.pc
  | .exhausted => s.exhaust cfg s.pc
  | .stopped => s.stop s.pc
  | .clientGone => some { s with client := false }
  | .clientBuilt => some { s with client := true }
  | .acknowledged id => some { s with group := s.group.ack id }
  | .added id => (s.group.add id).map (fun group => { s with group := group })
  | .readElsewhere count => some { s with group := s.group.readGroup false count }
  | .claimedElsewhere id => some { s with group := s.group.claimElsewhere id }
  | .elapsed ms => some { s with group := { s.group with now := s.group.now + ms } }

/-! ## What the group hands out -/

namespace Group

variable (g : Group Id)

/-- Which entries there are does not depend on what is pending. -/
@[simp] theorem ids_setPending (f : Entry Id → Option Delivery) :
    (g.setPending f).ids = g.ids := by
  unfold ids setPending
  rw [List.map_map]
  rfl

@[simp] theorem ids_assign (mine : Bool) (ids : List Id) : (g.assign mine ids).ids = g.ids :=
  g.ids_setPending _

@[simp] theorem ids_readGroup (mine : Bool) (count : ℕ) :
    (g.readGroup mine count).ids = g.ids := g.ids_assign mine _

@[simp] theorem lastDelivered_assign (mine : Bool) (ids : List Id) :
    (g.assign mine ids).lastDelivered = g.lastDelivered := rfl

/-- **Entries stand in the order of their ids.** -/
theorem pairwise_ids : g.ids.Pairwise (· < ·) := g.sorted

theorem pairwise_undelivered (count : ℕ) : (g.undelivered count).Pairwise (· < ·) :=
  g.pairwise_ids.sublist ((List.take_sublist _ _).trans List.filter_sublist)

/-- What is handed out as new is beyond what had been. -/
theorem lt_of_mem_undelivered {count : ℕ} {id : Id} (h : id ∈ g.undelivered count) :
    g.lastDelivered < (id : WithBot Id) := by
  have hmem := List.mem_of_mem_take h
  rw [List.mem_filter, decide_eq_true_eq] at hmem
  exact hmem.2

/-- The group goes forward, to what it hands out. -/
theorem le_lastDelivered_readGroup (mine : Bool) (count : ℕ) :
    g.lastDelivered ≤ (g.readGroup mine count).lastDelivered
      ∧ ∀ id ∈ g.undelivered count, id ≤ (g.readGroup mine count).lastDelivered := by
  have hfold : ∀ (ids : List Id) (last : WithBot Id),
      last ≤ ids.foldl (fun last id => max last id) last
        ∧ ∀ id ∈ ids, id ≤ ids.foldl (fun last id => max last id) last := by
    intro ids
    induction ids with
    | nil => exact fun last => ⟨le_rfl, nofun⟩
    | cons id ids ih =>
      intro last
      obtain ⟨hlast, hids⟩ := ih (max last id)
      refine ⟨(le_max_left _ _).trans hlast, fun id' hid' => ?_⟩
      rcases List.mem_cons.1 hid' with rfl | hid'
      · exact (le_max_right _ _).trans hlast
      · exact hids id' hid'
  exact hfold (g.undelivered count) g.lastDelivered

omit [LinearOrder Id] in
/-- A claim is made of entries in their order. -/
theorem sublist_scan (now minIdle : ℕ) (attempts count : ℕ) (pending : List (Id × ℕ)) :
    (scan now minIdle attempts count pending).1.Sublist (pending.map Prod.fst) := by
  induction pending generalizing attempts count with
  | nil => simp [scan]
  | cons entry rest ih =>
    cases attempts with
    | zero => simp [scan]
    | succ attempts =>
      cases count with
      | zero => simp [scan]
      | succ count =>
        unfold scan
        split
        next => exact (ih attempts count).cons_cons entry.1
        next => exact (ih attempts (count + 1)).cons entry.1

/-- The pending entries from a cursor on. -/
theorem map_fst_pendingFrom (cursor : WithBot Id) :
    (g.pendingFrom cursor).map Prod.fst = (g.entries.filter (fun e =>
      decide (cursor ≤ (e.id : WithBot Id)) && e.pending.isSome)).map Entry.id := by
  unfold pendingFrom
  induction g.entries with
  | nil => rfl
  | cons e rest ih =>
    by_cases hcursor : cursor ≤ (e.id : WithBot Id)
    · cases hp : e.pending with
      | none => simpa [hcursor, hp] using ih
      | some d => simpa [hcursor, hp] using ih
    · simpa [hcursor] using ih

theorem pairwise_pendingFrom (cursor : WithBot Id) :
    ((g.pendingFrom cursor).map Prod.fst).Pairwise (· < ·) := by
  rw [map_fst_pendingFrom]
  exact g.pairwise_ids.sublist (List.filter_sublist.map Entry.id)

theorem pairwise_claimable (minIdle count : ℕ) (cursor : WithBot Id) :
    (g.claimable minIdle count cursor).1.Pairwise (· < ·) :=
  (g.pairwise_pendingFrom cursor).sublist (sublist_scan _ _ _ _ _)

end Group

/-! ## What is in hand -/

/-- The entries the source has been handed, or is about to be, and has not taken up. -/
def Pc.inHand : Pc Id → List Id
  | .reclaiming (some (ids, _)) => ids
  | .reading (some ids) => ids
  | .yielding batch => batch
  | .reclaiming none | .reading none | .recovering _ | .idle | .ended => []

namespace State

variable (cfg : Config) (s : State Id)

/-- The next command is sent, or the stream ends. -/
theorem read_eq : s.read = s.withPc (.reading none) ∨ s.read = s.withPc .ended := by
  unfold read
  split
  next => exact .inl rfl
  next => exact .inr rfl

/-- **The top of the loop** has nothing in hand, and nothing else changes. -/
theorem loop_eq : ∃ n pc, s.loop cfg = { s with consecutiveReclaimBatchCount := n, pc := pc }
    ∧ pc.inHand = [] ∧ (cfg.reclaimIdleMs = none → pc = .reading none ∨ pc = .ended) := by
  have hread : ∃ n pc, ({ s with consecutiveReclaimBatchCount := 0 } : State Id).read
      = { s with consecutiveReclaimBatchCount := n, pc := pc }
      ∧ pc.inHand = [] ∧ (pc = .reading none ∨ pc = .ended) := by
    rcases ({ s with consecutiveReclaimBatchCount := 0 } : State Id).read_eq with h | h
    · exact ⟨0, .reading none, h, rfl, .inl rfl⟩
    · exact ⟨0, .ended, h, rfl, .inr rfl⟩
  obtain ⟨n, pc, hpc, hinHand, hpcs⟩ := hread
  unfold loop
  split
  next => exact ⟨n, pc, hpc, hinHand, fun _ => hpcs⟩
  next idle hidle =>
    have hne : cfg.reclaimIdleMs ≠ none := by
      rw [hidle]
      exact Option.some_ne_none idle
    split
    next =>
      split
      next => exact ⟨s.consecutiveReclaimBatchCount, .reclaiming none, rfl, rfl,
          fun hnone => absurd hnone hne⟩
      next => exact ⟨n, pc, hpc, hinHand, fun _ => hpcs⟩
    next => exact ⟨n, pc, hpc, hinHand, fun _ => hpcs⟩

/-- **A command raises**: what it may have handed out is not in hand. -/
theorem fail_eq {s t : State Id} {retryable : Bool} (hs : s.fail retryable s.pc = some t) :
    ∃ adrift pc client, t = { s with adrift := adrift, pc := pc, client := client }
      ∧ pc.inHand = [] ∧ (retryable = false → pc = .ended) ∧ s.pc ≠ .ended
      ∧ (∀ reply, pc ≠ .reclaiming reply) ∧ pc ≠ .idle := by
  unfold State.fail cutLoose at hs
  split at hs
  next reply hpc =>
    have hne : s.pc ≠ .ended := by
      rw [hpc]
      exact nofun
    cases retryable <;> cases reply <;> cases hs <;>
      exact ⟨_, _, _, rfl, rfl, by simp, hne, nofun, nofun⟩
  next reply hpc =>
    have hne : s.pc ≠ .ended := by
      rw [hpc]
      exact nofun
    cases retryable <;> cases reply <;> cases hs <;>
      exact ⟨_, _, _, rfl, rfl, by simp, hne, nofun, nofun⟩
  next => cases hs

/-- **A step that hands out nothing and takes nothing up.** What is in hand stays there,
unless the stream ends, and no entry comes to be pending for the consumer. -/
structure Quiet (s t : State Id) : Prop where
  inHand : t.pc ≠ .ended → s.pc ≠ .ended ∧ t.pc.inHand = s.pc.inHand
  inHand_sublist : t.pc.inHand.Sublist s.pc.inHand
  lastMessageId : t.lastMessageId = s.lastMessageId
  emitted : t.emitted = s.emitted
  dropped : t.dropped = s.dropped
  assigned : t.assigned = s.assigned
  mine : ∀ id, t.group.Mine id → s.group.Mine id

variable {s}

/-- Where only the group changes, and this source gets no entry. -/
theorem Quiet.of_group {group : Group Id} (h : ∀ id, group.Mine id → s.group.Mine id) :
    s.Quiet { s with group := group } :=
  ⟨fun hpc => ⟨hpc, rfl⟩, List.Sublist.refl _, rfl, rfl, rfl, rfl, h⟩

theorem Quiet.trans {t u : State Id} (h : s.Quiet t) (h' : t.Quiet u) : s.Quiet u where
  inHand hpc := ⟨(h.inHand (h'.inHand hpc).1).1,
    (h'.inHand hpc).2.trans (h.inHand (h'.inHand hpc).1).2⟩
  inHand_sublist := h'.inHand_sublist.trans h.inHand_sublist
  lastMessageId := h'.lastMessageId.trans h.lastMessageId
  emitted := h'.emitted.trans h.emitted
  dropped := h'.dropped.trans h.dropped
  assigned := h'.assigned.trans h.assigned
  mine id hid := h.mine id (h'.mine id hid)

theorem quiet_ended : s.Quiet (s.withPc .ended) :=
  ⟨fun hpc => absurd rfl hpc, List.nil_sublist _, rfl, rfl, rfl, rfl, fun _ hid => hid⟩

/-- Nothing is in hand before or after. -/
theorem Quiet.of_inHand_eq_nil {t : State Id} (hs : s.pc ≠ .ended) (hinHand : s.pc.inHand = [])
    (ht : t.pc.inHand = []) (hlast : t.lastMessageId = s.lastMessageId)
    (hemitted : t.emitted = s.emitted) (hdropped : t.dropped = s.dropped)
    (hassigned : t.assigned = s.assigned) (hgroup : t.group.entries = s.group.entries) :
    s.Quiet t := by
  refine ⟨fun _ => ⟨hs, ht.trans hinHand.symm⟩, ht ▸ List.nil_sublist _, hlast, hemitted,
    hdropped, hassigned, fun id hid => ?_⟩
  unfold Group.Mine at hid ⊢
  rwa [hgroup] at hid

theorem quiet_read (hs : s.pc ≠ .ended) (hinHand : s.pc.inHand = []) : s.Quiet s.read := by
  rcases s.read_eq with heq | heq <;> rw [heq] <;>
    exact Quiet.of_inHand_eq_nil hs hinHand rfl rfl rfl rfl rfl rfl

theorem quiet_loop (hs : s.pc ≠ .ended) (hinHand : s.pc.inHand = []) :
    s.Quiet (s.loop cfg) := by
  obtain ⟨n, pc, heq, hpc, _⟩ := s.loop_eq cfg
  rw [heq]
  exact Quiet.of_inHand_eq_nil hs hinHand hpc rfl rfl rfl rfl rfl

theorem quiet_stream {t : State Id} {resume : Option Id}
    (hs : s.stream cfg resume s.pc = some t) : s.Quiet t := by
  unfold State.stream at hs
  split at hs
  next hpc =>
    have hne : s.pc ≠ .ended := by
      rw [hpc]
      exact nofun
    have hinHand : s.pc.inHand = [] := by
      rw [hpc]
      rfl
    rw [Option.some.injEq] at hs
    subst hs
    cases resume with
    | none => exact quiet_loop cfg hne hinHand
    | some id =>
      dsimp only
      split
      next => exact quiet_ended
      next =>
        have hquiet : s.Quiet (s.setGroup id) := .of_group (fun _ hid => hid)
        exact hquiet.trans (quiet_loop cfg hne hinHand)
  next => cases hs

theorem quiet_answer {t : State Id} (hs : s.answer cfg s.pc = some t) : s.Quiet t := by
  unfold State.answer at hs
  split at hs
  next hpc =>
    cases hs
    refine quiet_loop cfg ?_ ?_
    · rw [hpc]
      exact nofun
    · rw [hpc]
      rfl
  next id rest hpc =>
    cases hs
    refine ⟨fun _ => ?_, ?_, rfl, rfl, rfl, rfl, fun _ hid => hid⟩
    · rw [hpc]
      exact ⟨nofun, rfl⟩
    · rw [hpc]
      exact List.Sublist.refl _
  next cursor hpc =>
    cases hs
    have hquiet : s.Quiet { s with
        reclaimCursor := parsedCursor cfg cursor, consecutiveReclaimBatchCount := 0 } :=
      ⟨fun hpc => ⟨hpc, rfl⟩, List.Sublist.refl _, rfl, rfl, rfl, rfl, fun _ hid => hid⟩
    refine hquiet.trans (quiet_read ?_ ?_)
    · show s.pc ≠ .ended
      rw [hpc]
      exact nofun
    · show s.pc.inHand = []
      rw [hpc]
      rfl
  next id rest cursor hpc =>
    cases hs
    refine ⟨fun _ => ?_, ?_, rfl, rfl, rfl, rfl, fun _ hid => hid⟩
    · rw [hpc]
      exact ⟨nofun, rfl⟩
    · rw [hpc]
      exact List.Sublist.refl _
  next => cases hs

theorem quiet_recover {t : State Id} (hs : s.recover cfg s.pc = some t) : s.Quiet t := by
  unfold State.recover at hs
  have hquiet : ∀ n, s.Quiet { s with client := true, consecutiveReclaimBatchCount := n } :=
    fun n => ⟨fun hpc => ⟨hpc, rfl⟩, List.Sublist.refl _, rfl, rfl, rfl, rfl, fun _ hid => hid⟩
  split at hs
  next hpc =>
    cases hs
    refine (hquiet 0).trans (quiet_read ?_ ?_)
    · show s.pc ≠ .ended
      rw [hpc]
      exact nofun
    · show s.pc.inHand = []
      rw [hpc]
      rfl
  next hpc =>
    cases hs
    refine (hquiet _).trans (quiet_loop cfg ?_ ?_)
    · show s.pc ≠ .ended
      rw [hpc]
      exact nofun
    · show s.pc.inHand = []
      rw [hpc]
      rfl
  next => cases hs

theorem quiet_giveUp {t : State Id} (hs : s.giveUp s.pc = some t) : s.Quiet t := by
  unfold State.giveUp at hs
  split at hs
  next => exact Option.some.inj hs ▸ quiet_ended
  next => cases hs

theorem quiet_exhaust {t : State Id} (hs : s.exhaust cfg s.pc = some t) : s.Quiet t := by
  unfold State.exhaust at hs
  split at hs
  next hpc =>
    refine Option.some.inj hs ▸ quiet_loop cfg ?_ ?_
    · rw [hpc]
      exact nofun
    · rw [hpc]
      rfl
  next => cases hs

theorem quiet_stop {t : State Id} (hs : s.stop s.pc = some t) : s.Quiet t := by
  unfold State.stop at hs
  split at hs
  next => exact Option.some.inj hs ▸ quiet_ended
  next => cases hs

end State

namespace Group

variable (g : Group Id)

/-- An entry is pending for the consumer only if it was, where nothing is given to it. -/
theorem mine_of_mine_setPending {f : Entry Id → Option Delivery}
    (hf : ∀ e, (f e).any Delivery.mine = true → e.pending.any Delivery.mine = true) {id : Id}
    (h : (g.setPending f).Mine id) : g.Mine id := by
  obtain ⟨e, he, hid, hmine⟩ := h
  obtain ⟨e', he', rfl⟩ := List.mem_map.1 he
  exact ⟨e', he', hid, hf e' hmine⟩

/-- An acknowledgement gives this source no entry. -/
theorem mine_of_mine_ack {i id : Id} (h : (g.ack i).Mine id) : g.Mine id := by
  refine g.mine_of_mine_setPending (fun e he => ?_) h
  split at he
  next => cases he
  next => exact he

theorem mine_of_mine_claimElsewhere {i id : Id} (h : (g.claimElsewhere i).Mine id) :
    g.Mine id := by
  refine g.mine_of_mine_setPending (fun e he => ?_) h
  split at he
  next =>
    cases hp : e.pending with
    | none => simp [hp] at he
    | some d => simp [hp] at he
  next => exact he

theorem mine_of_mine_readGroup {count : ℕ} {id : Id} (h : (g.readGroup false count).Mine id) :
    g.Mine id := by
  refine g.mine_of_mine_setPending (fun e he => ?_) h
  split at he
  next => cases he
  next => exact he

theorem mine_of_mine_add {g' : Group Id} {i id : Id} (hadd : g.add i = some g')
    (h : g'.Mine id) : g.Mine id := by
  unfold add at hadd
  split at hadd
  next =>
    cases hadd
    obtain ⟨e, he, hid, hmine⟩ := h
    rcases List.mem_append.1 he with he | he
    · exact ⟨e, he, hid, hmine⟩
    · rw [List.mem_singleton.1 he] at hmine
      cases hmine
  next => cases hadd

end Group

/-- The events that hand out nothing and take nothing up. -/
def Event.isQuiet : Event Id → Bool
  | .executed | .executedAdrift _ | .raised _ | .taken _ => false
  | _ => true

/-- **All other events are quiet.** -/
theorem quiet_of_step {s t : State Id} {e : Event Id} (he : e.isQuiet = true)
    (hs : step cfg s e = some t) : s.Quiet t := by
  cases e with
  | executed => cases he
  | executedAdrift i => cases he
  | raised retryable => cases he
  | taken readable => cases he
  | stream resume => exact State.quiet_stream cfg hs
  | answered => exact State.quiet_answer cfg hs
  | recovered => exact State.quiet_recover cfg hs
  | notRecovered => exact State.quiet_giveUp hs
  | exhausted => exact State.quiet_exhaust cfg hs
  | stopped => exact State.quiet_stop hs
  | clientGone =>
    exact Option.some.inj hs ▸
      ⟨fun hpc => ⟨hpc, rfl⟩, List.Sublist.refl _, rfl, rfl, rfl, rfl, fun _ hid => hid⟩
  | clientBuilt =>
    exact Option.some.inj hs ▸
      ⟨fun hpc => ⟨hpc, rfl⟩, List.Sublist.refl _, rfl, rfl, rfl, rfl, fun _ hid => hid⟩
  | acknowledged id =>
    exact Option.some.inj hs ▸ .of_group (fun _ hid => s.group.mine_of_mine_ack hid)
  | added id =>
    obtain ⟨group, hadd, rfl⟩ := Option.map_eq_some_iff.1 hs
    exact .of_group (fun _ hid => s.group.mine_of_mine_add hadd hid)
  | readElsewhere count =>
    exact Option.some.inj hs ▸ .of_group (fun _ hid => s.group.mine_of_mine_readGroup hid)
  | claimedElsewhere id =>
    exact Option.some.inj hs ▸ .of_group (fun _ hid => s.group.mine_of_mine_claimElsewhere hid)
  | elapsed ms => exact Option.some.inj hs ▸ .of_group (fun _ hid => hid)

end StreamSource

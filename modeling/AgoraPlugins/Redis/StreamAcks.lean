import AgoraPlugins.Machine

/-!
# Acknowledging the entries of a stream

A message that has been handled is put on a list, `_pending_ack_ids`, and the list is
sent to the server in one `XACK` when it is long enough. While the command is under way
the list is a new, empty one: more messages may be put on it, and other coroutines may
flush it, since nothing stops a second flush from starting while the first one waits.

A command that raises has its ids put back. An error of the connection is then recovered
from, by building a new client, and whatever is on the list by the time the client is
there is sent once more. A cancellation is not an `Exception`, and puts nothing back.

A command and its reply are two things: the server may execute a command whose reply
never comes, and may do so after the caller has given up on it.
-/

open Machine

namespace StreamAcks

variable {Id : Type}

/-- **How an `XACK` ends** that does not return. -/
inductive Failure where
  /-- `_is_retryable_connection_error` -/
  | retryable
  | fatal
  /-- `asyncio.CancelledError` -/
  | cancelled
  deriving DecidableEq

/-- **Where a `flush_pending_acks` is** that has not returned at once: waiting for its
`XACK`, the first or the one after it has recovered, or for the new client. -/
inductive Flush (Id : Type) where
  | acking (recovered : Bool) (ids : List Id) (executed : Bool)
  | recovering
  | ended
  deriving DecidableEq

/-- The ids of the command a flush waits for. -/
def Flush.ids : Flush Id → List Id
  | .acking _ ids _ => ids
  | .recovering | .ended => []

/-- The flush has returned or raised. -/
def Flush.isEnded : Flush Id → Bool
  | .ended => true
  | .acking _ _ _ | .recovering => false

/-- The source, its flushes, and what has come of them. -/
structure State (Id : Type) where
  /-- `_client` is there -/
  client : Bool
  /-- `_pending_ack_ids` -/
  pending : List Id
  flushes : List (Flush Id)
  /-- the commands whose caller has given up on them, and that may still be executed -/
  adrift : List (List Id)
  /-- every message that has been enqueued -/
  enqueued : List Id
  /-- every `XACK` that has been sent -/
  sent : List (List Id)
  /-- every message the server has acknowledged -/
  acked : List Id

/-- What can happen. -/
inductive Event (Id : Type) where
  | enqueueAck (id : Id)
  | flushPendingAcks
  /-- the callback of `build_failure_ack_callback`, which has no part in the list -/
  | failureAck (id : Id)
  /-- the server executes the command of a flush -/
  | executed (flush : ℕ)
  /-- the server executes a command nobody waits for any more -/
  | executedAdrift (command : ℕ)
  /-- such a command never comes to the server -/
  | vanished (command : ℕ)
  | answered (flush : ℕ)
  | raised (flush : ℕ) (failure : Failure)
  /-- `reconnect_client` has put a new client in place, or it raises -/
  | reconnected (flush : ℕ)
  | notReconnected (flush : ℕ)
  /-- the client goes or comes by `close`, `open`, or a recovery of the read loop -/
  | clientGone
  | clientBuilt

namespace State

/-- An open source. -/
def init : State Id := ⟨true, [], [], [], [], [], []⟩

variable (s : State Id)

def setFlush (i : ℕ) (f : Flush Id) : State Id := { s with flushes := s.flushes.set i f }

/-- `pending_ids, self._pending_ack_ids = self._pending_ack_ids, []`, and the `XACK`. -/
def swap : State Id := { s with pending := [], sent := s.sent ++ [s.pending] }

/-- `flush_pending_acks`, up to its first await point. -/
def flushPendingAcks : State Id :=
  if s.client = false ∨ s.pending = [] then s
  else { s.swap with flushes := s.flushes ++ [.acking false s.pending false] }

/-- `enqueue_ack`. -/
def enqueueAck (ackBatchSize : ℕ) (id : Id) : State Id :=
  let s := { s with pending := s.pending ++ [id], enqueued := s.enqueued ++ [id] }
  if ackBatchSize ≤ s.pending.length then s.flushPendingAcks else s

/-- The callback of `build_failure_ack_callback`: an `XACK` of its own, which raises when
the client is gone. -/
def failureAck (id : Id) : State Id :=
  if s.client then { s with sent := s.sent ++ [[id]], adrift := s.adrift ++ [[id]] } else s

/-- The server executes the command of a flush. -/
def execute (i : ℕ) : Flush Id → Option (State Id)
  | .acking recovered ids false => some
      { s.setFlush i (.acking recovered ids true) with acked := s.acked ++ ids }
  | .acking _ _ true | .recovering | .ended => none

/-- The reply comes in. -/
def answer (i : ℕ) : Flush Id → Option (State Id)
  | .acking _ _ true => some (s.setFlush i .ended)
  | .acking _ _ false | .recovering | .ended => none

/-- The command may still be executed. -/
def cutLoose (ids : List Id) : State Id := { s with adrift := s.adrift ++ [ids] }

/-- `self._pending_ack_ids = pending_ids + self._pending_ack_ids`. -/
def restore (ids : List Id) : State Id := { s with pending := ids ++ s.pending }

/-- **The `XACK` raises.** A cancellation passes both handlers by; an error is recovered
from once, if it is one of the connection. -/
def fail (i : ℕ) : Flush Id → Failure → Option (State Id)
  | .acking _ ids _, .cancelled => some ((s.cutLoose ids).setFlush i .ended)
  | .acking false ids _, .retryable => some
      { ((s.cutLoose ids).restore ids).setFlush i .recovering with client := false }
  | .acking _ ids _, _ => some (((s.cutLoose ids).restore ids).setFlush i .ended)
  | .recovering, _ | .ended, _ => none

/-- The new client is there, and the list is sent once more, whatever is on it. -/
def reconnect (i : ℕ) : Flush Id → Option (State Id)
  | .recovering => some
      { (s.swap).setFlush i (.acking true s.pending false) with client := true }
  | .acking _ _ _ | .ended => none

/-- There is no new client. -/
def giveUp (i : ℕ) : Flush Id → Option (State Id)
  | .recovering => some (s.setFlush i .ended)
  | .acking _ _ _ | .ended => none

end State

variable (ackBatchSize : ℕ)

/-- **One event.** -/
def step (s : State Id) : Event Id → Option (State Id)
  | .enqueueAck id => some (s.enqueueAck ackBatchSize id)
  | .flushPendingAcks => some s.flushPendingAcks
  | .failureAck id => some (s.failureAck id)
  | .executed i => (s.flushes[i]?).bind (s.execute i)
  | .executedAdrift i => (s.adrift[i]?).map (fun ids =>
      { s with adrift := s.adrift.eraseIdx i, acked := s.acked ++ ids })
  | .vanished i => (s.adrift[i]?).map (fun _ => { s with adrift := s.adrift.eraseIdx i })
  | .answered i => (s.flushes[i]?).bind (s.answer i)
  | .raised i failure => (s.flushes[i]?).bind (fun f => s.fail i f failure)
  | .reconnected i => (s.flushes[i]?).bind (s.reconnect i)
  | .notReconnected i => (s.flushes[i]?).bind (s.giveUp i)
  | .clientGone => some { s with client := false }
  | .clientBuilt => some { s with client := true }

/-! ## The law -/

/-- **Every message is accounted for** when no flush is under way: it has been
acknowledged or is on the list. And no `XACK` has been sent without ids. -/
def State.Accounted (s : State Id) : Prop :=
  ((∀ f ∈ s.flushes, f.isEnded = true) → ∀ id ∈ s.enqueued, id ∈ s.acked ∨ id ∈ s.pending)
    ∧ ∀ ids ∈ s.sent, ids ≠ []

/-- **When a step keeps to the law**: an `XACK` is not cancelled before the server has
executed it, and no other flush has emptied the list by the time a flush has
recovered. -/
def Orderly (s : State Id) : Event Id → Prop
  | .raised i .cancelled =>
    ∀ f ∈ s.flushes[i]?, ∀ recovered ids, f ≠ .acking recovered ids false
  | .reconnected _ => s.pending ≠ []
  | _ => True

/-! ## What a step keeps -/

namespace State

/-- **The invariant**: while a flush waits for its `XACK`, it has the ids that are
neither acknowledged nor on the list. -/
structure Sound (s : State Id) : Prop where
  kept : ∀ id ∈ s.enqueued, id ∈ s.acked ∨ id ∈ s.pending ∨ ∃ f ∈ s.flushes, id ∈ f.ids
  executed : ∀ recovered ids, .acking recovered ids true ∈ s.flushes → ids ⊆ s.acked
  sent : ∀ ids ∈ s.sent, ids ≠ []

theorem Sound.accounted {s : State Id} (h : s.Sound) : s.Accounted := by
  refine ⟨fun hended id hid => ?_, h.sent⟩
  rcases h.kept id hid with hacked | hpending | ⟨f, hf, hid⟩
  · exact .inl hacked
  · exact .inr hpending
  · have := hended f hf
    cases f with
    | acking => cases this
    | recovering => cases this
    | ended => cases hid

theorem sound_init : (init : State Id).Sound := ⟨nofun, nofun, nofun⟩

/-- The list is taken off and sent. -/
theorem Sound.flushPendingAcks {s : State Id} (h : s.Sound) : s.flushPendingAcks.Sound := by
  unfold State.flushPendingAcks
  split
  next => exact h
  next hne =>
    refine ⟨fun id hid => ?_, fun recovered ids hf => ?_, fun ids hids => ?_⟩
    · rcases h.kept id hid with hacked | hpending | ⟨f, hf, hid⟩
      · exact .inl hacked
      · exact .inr (.inr ⟨_, List.mem_append_right _ (List.mem_singleton.2 rfl), hpending⟩)
      · exact .inr (.inr ⟨f, List.mem_append_left _ hf, hid⟩)
    · rcases List.mem_append.1 hf with hf | hf
      · exact h.executed recovered ids hf
      · cases List.mem_singleton.1 hf
    · rcases List.mem_append.1 hids with hids | hids
      · exact h.sent ids hids
      · rw [List.mem_singleton.1 hids]
        exact fun hnil => hne (.inr hnil)

theorem Sound.enqueueAck {s : State Id} (h : s.Sound) (id : Id) :
    (s.enqueueAck ackBatchSize id).Sound := by
  have hnext : Sound { s with pending := s.pending ++ [id], enqueued := s.enqueued ++ [id] } := by
    refine ⟨fun id' hid => ?_, h.executed, h.sent⟩
    rcases List.mem_append.1 hid with hid | hid
    · rcases h.kept id' hid with hacked | hpending | hflush
      · exact .inl hacked
      · exact .inr (.inl (List.mem_append_left _ hpending))
      · exact .inr (.inr hflush)
    · exact .inr (.inl (List.mem_append_right _ hid))
  unfold State.enqueueAck
  dsimp only
  split
  next => exact hnext.flushPendingAcks
  next => exact hnext

theorem Sound.failureAck {s : State Id} (h : s.Sound) (id : Id) : (s.failureAck id).Sound := by
  unfold State.failureAck
  split
  next =>
    refine ⟨h.kept, h.executed, fun ids hids => ?_⟩
    rcases List.mem_append.1 hids with hids | hids
    · exact h.sent ids hids
    · rw [List.mem_singleton.1 hids]
      exact List.cons_ne_nil id []
  next => exact h

/-- **A flush moves on.** Its ids stay with it, or they are acknowledged or on the list by
now; and it only waits for a command that has been executed if its ids are
acknowledged. -/
theorem Sound.setFlush {s t : State Id} (h : s.Sound) {i : ℕ} {f g : Flush Id}
    (hf : s.flushes[i]? = some f) (hflushes : t.flushes = s.flushes.set i g)
    (henqueued : t.enqueued = s.enqueued) (hacked : s.acked ⊆ t.acked)
    (hpending : ∀ id ∈ s.pending, id ∈ t.pending ∨ id ∈ g.ids)
    (hids : ∀ id ∈ f.ids, id ∈ t.acked ∨ id ∈ t.pending ∨ id ∈ g.ids)
    (hexecuted : ∀ recovered ids, g = .acking recovered ids true → ids ⊆ t.acked)
    (hsent : ∀ ids ∈ t.sent, ids ≠ []) : t.Sound := by
  have hlt : i < s.flushes.length := (List.getElem?_eq_some_iff.1 hf).1
  have hg : g ∈ t.flushes := by
    rw [hflushes]
    exact List.mem_iff_getElem?.2 ⟨i, List.getElem?_set_self hlt⟩
  refine ⟨fun id hid => ?_, fun recovered ids hmem => ?_, hsent⟩
  · rw [henqueued] at hid
    rcases h.kept id hid with hid | hid | ⟨f', hf', hid⟩
    · exact .inl (hacked hid)
    · exact .inr ((hpending id hid).imp_right (fun hid => ⟨g, hg, hid⟩))
    · obtain ⟨j, hj⟩ := List.mem_iff_getElem?.1 hf'
      by_cases hji : i = j
      · subst hji
        rw [hf] at hj
        cases hj
        exact (hids id hid).imp_right (Or.imp_right (fun hid => ⟨g, hg, hid⟩))
      · refine .inr (.inr ⟨f', ?_, hid⟩)
        rw [hflushes]
        exact List.mem_iff_getElem?.2 ⟨j, (List.getElem?_set_ne hji).trans hj⟩
  · rw [hflushes] at hmem
    rcases List.mem_or_eq_of_mem_set hmem with hmem | hmem
    · exact List.Subset.trans (h.executed recovered ids hmem) hacked
    · exact hexecuted recovered ids hmem.symm

theorem Sound.execute {s t : State Id} (h : s.Sound) {i : ℕ} {f : Flush Id}
    (hf : s.flushes[i]? = some f) (hs : s.execute i f = some t) : t.Sound := by
  unfold State.execute at hs
  split at hs
  next recovered ids =>
    cases hs
    refine h.setFlush hf rfl rfl (List.subset_append_left _ _) (fun id hid => .inl hid)
      (fun id hid => .inl (List.mem_append_right _ hid)) (fun recovered' ids' heq => ?_) h.sent
    cases heq
    exact List.subset_append_right _ _
  all_goals cases hs

theorem Sound.answer {s t : State Id} (h : s.Sound) {i : ℕ} {f : Flush Id}
    (hf : s.flushes[i]? = some f) (hs : s.answer i f = some t) : t.Sound := by
  unfold State.answer at hs
  split at hs
  next recovered ids =>
    cases hs
    have hacked : ids ⊆ s.acked := h.executed recovered ids (List.mem_of_getElem? hf)
    exact h.setFlush hf rfl rfl (List.Subset.refl _) (fun id hid => .inl hid)
      (fun id hid => .inl (hacked hid)) nofun h.sent
  all_goals cases hs

/-- **An `XACK` raises.** The ids of one that is cancelled are acknowledged if the server
has executed it. -/
theorem Sound.fail {s t : State Id} (h : s.Sound) {i : ℕ} {f : Flush Id} {failure : Failure}
    (hf : s.flushes[i]? = some f)
    (hcancelled : failure = .cancelled → ∀ recovered ids, f ≠ .acking recovered ids false)
    (hs : s.fail i f failure = some t) : t.Sound := by
  unfold State.fail at hs
  split at hs
  next recovered ids executed =>
    cases hs
    refine h.setFlush hf rfl rfl (List.Subset.refl _) (fun id hid => .inl hid)
      (fun id hid => .inl ?_) nofun h.sent
    cases executed with
    | false => exact absurd rfl (hcancelled rfl recovered ids)
    | true => exact h.executed recovered ids (List.mem_of_getElem? hf) hid
  next ids executed =>
    cases hs
    exact h.setFlush hf rfl rfl (List.Subset.refl _)
      (fun id hid => .inl (List.mem_append_right _ hid))
      (fun id hid => .inr (.inl (List.mem_append_left _ hid))) nofun h.sent
  next ids executed _ _ _ =>
    cases hs
    exact h.setFlush hf rfl rfl (List.Subset.refl _)
      (fun id hid => .inl (List.mem_append_right _ hid))
      (fun id hid => .inr (.inl (List.mem_append_left _ hid))) nofun h.sent
  all_goals cases hs

/-- **A flush has recovered**, and there is something on the list. -/
theorem Sound.reconnect {s t : State Id} (h : s.Sound) {i : ℕ} {f : Flush Id}
    (hf : s.flushes[i]? = some f) (hpending : s.pending ≠ [])
    (hs : s.reconnect i f = some t) : t.Sound := by
  unfold State.reconnect at hs
  split at hs
  next =>
    cases hs
    refine h.setFlush hf rfl rfl (List.Subset.refl _) (fun id hid => .inr hid) nofun nofun
      (fun ids hids => ?_)
    rcases List.mem_append.1 hids with hids | hids
    · exact h.sent ids hids
    · exact List.mem_singleton.1 hids ▸ hpending
  all_goals cases hs

theorem Sound.giveUp {s t : State Id} (h : s.Sound) {i : ℕ} {f : Flush Id}
    (hf : s.flushes[i]? = some f) (hs : s.giveUp i f = some t) : t.Sound := by
  unfold State.giveUp at hs
  split at hs
  next =>
    cases hs
    exact h.setFlush hf rfl rfl (List.Subset.refl _) (fun id hid => .inl hid) nofun nofun h.sent
  all_goals cases hs

/-- **One step keeps the invariant**, if it is orderly. -/
theorem Sound.step {s t : State Id} (h : s.Sound) {e : Event Id} (he : Orderly s e)
    (hs : StreamAcks.step ackBatchSize s e = some t) : t.Sound := by
  cases e with
  | enqueueAck id => exact Option.some.inj hs ▸ h.enqueueAck ackBatchSize id
  | flushPendingAcks => exact Option.some.inj hs ▸ h.flushPendingAcks
  | failureAck id => exact Option.some.inj hs ▸ h.failureAck id
  | executed i =>
    obtain ⟨f, hf, hs⟩ := Option.bind_eq_some_iff.1 hs
    exact h.execute hf hs
  | executedAdrift i =>
    obtain ⟨ids, _, rfl⟩ := Option.map_eq_some_iff.1 hs
    refine ⟨fun id hid => ?_, fun recovered ids' hf => ?_, h.sent⟩
    · exact (h.kept id hid).imp_left (List.mem_append_left _)
    · exact List.Subset.trans (h.executed recovered ids' hf) (List.subset_append_left _ _)
  | vanished i =>
    obtain ⟨ids, _, rfl⟩ := Option.map_eq_some_iff.1 hs
    exact ⟨h.kept, h.executed, h.sent⟩
  | answered i =>
    obtain ⟨f, hf, hs⟩ := Option.bind_eq_some_iff.1 hs
    exact h.answer hf hs
  | raised i failure =>
    obtain ⟨f, hf, hs⟩ := Option.bind_eq_some_iff.1 hs
    refine h.fail hf (fun hcancelled => ?_) hs
    subst hcancelled
    exact he f hf
  | reconnected i =>
    obtain ⟨f, hf, hs⟩ := Option.bind_eq_some_iff.1 hs
    exact h.reconnect hf he hs
  | notReconnected i =>
    obtain ⟨f, hf, hs⟩ := Option.bind_eq_some_iff.1 hs
    exact h.giveUp hf hs
  | clientGone => exact Option.some.inj hs ▸ ⟨h.kept, h.executed, h.sent⟩
  | clientBuilt => exact Option.some.inj hs ▸ ⟨h.kept, h.executed, h.sent⟩

end State

/-! ## Over a run -/

/-- **In an orderly run every message is accounted for**, whatever the order of the
flushes and of what becomes of their commands. -/
theorem allStates_accounted_of_orderly (ackBatchSize : ℕ) (es : List (Event Id))
    (h : AllSteps (step ackBatchSize) (fun s e _ => Orderly s e) .init es) :
    AllStates (step ackBatchSize) State.Accounted .init es :=
  (allStates_of_step (fun _ _ _ hsound he hs => hsound.step ackBatchSize he hs)
    State.sound_init h).mono (fun _ hsound => hsound.accounted)

/-- Two flushes fail, and the second one finds its id on the list again when it has
recovered, beside one that has been put there since. -/
theorem allStates_accounted_of_orderly_recovered :
    AllStates (step 1) State.Accounted .init
      [.enqueueAck 1, .raised 0 .retryable, .clientBuilt, .enqueueAck 2, .raised 1 .fatal,
        .reconnected 0, .executed 0, .answered 0] :=
  allStates_accounted_of_orderly 1 _ (by simp [AllSteps, step, Orderly, State.enqueueAck,
    State.flushPendingAcks, State.swap, State.init, State.fail, State.restore, State.cutLoose,
    State.setFlush, State.reconnect])

instance [DecidableEq Id] (s : State Id) : Decidable s.Accounted :=
  inferInstanceAs (Decidable (_ ∧ _))

/-- **A message can be lost, and a command sent without ids.** A cancelled command takes
the message with it that had been taken off the list, and never comes to the server; and
of two flushes that fail, the first one to recover takes the messages of both. -/
theorem not_accounted_cancelled_or_recovered :
    ¬ AllStates (step 1) State.Accounted .init
        [.enqueueAck 1, .raised 0 .cancelled, .vanished 0]
      ∧ ¬ AllStates (step 1) State.Accounted .init
        [.enqueueAck 1, .enqueueAck 2, .raised 0 .retryable, .raised 1 .retryable,
          .reconnected 0, .reconnected 1] := by
  decide

end StreamAcks

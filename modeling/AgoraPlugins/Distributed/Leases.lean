import AgoraPlugins.Dict
import AgoraPlugins.LuaNumber
import AgoraPlugins.Tenancy

/-!
# Leases on a Redis node

A lease is a JSON document under the key of its pipeline, and the scripts of
Redlock are all that touches it besides its time to live. The release and the
renewal act only on a document that names their own attempt, by worker id, time
and fencing token, the three compared as texts.

A node is given here with the log of what happened to its leases, and with the law
that the log accounts for them: read for one key, it is a tenancy whose present
holder is the attempt that stored the lease that is there. Neither the log nor the
attempt beside a document is read by a script; they say what a script did.
-/

open Machine

/-- **An attempt to acquire**, by what tells it apart from others. -/
structure Attempt where
  workerId : String
  acquiredAt : String
  fencingToken : ℕ
  deriving DecidableEq

/-- The document of a lease. Its fencing token is the number as it is written
there, which is also what `tostring` makes of it once it is decoded: fourteen
digits survive the reading. -/
structure LeaseDocument where
  workerId : String
  acquiredAt : String
  pipelineId : String
  runNumber : ℕ
  fencingToken : String

namespace LeaseDocument

/-- The test of the release and the renewal scripts, against their arguments. -/
def isOf (data : LeaseDocument) (workerId acquiredAt fencingToken : String) : Bool :=
  data.workerId = workerId && data.acquiredAt = acquiredAt && data.fencingToken = fencingToken

/-- What the acquire script encodes. -/
def encode (attempt : Attempt) (pipelineId : String) (runNumber : ℕ) : LeaseDocument where
  workerId := attempt.workerId
  acquiredAt := attempt.acquiredAt
  pipelineId := pipelineId
  runNumber := LuaNumber.tonumber runNumber
  fencingToken := LuaNumber.tostring (LuaNumber.tonumber attempt.fencingToken)

/-- **A document matches its own attempt only.** -/
theorem eq_of_isOf {attempt caller : Attempt} {pipelineId : String} {runNumber : ℕ}
    (h : (encode attempt pipelineId runNumber).isOf caller.workerId caller.acquiredAt
      (toString caller.fencingToken) = true) : attempt = caller := by
  unfold isOf encode at h
  simp only [Bool.and_eq_true, decide_eq_true_eq] at h
  obtain ⟨⟨hworker, hat⟩, htoken⟩ := h
  obtain ⟨workerId, acquiredAt, fencingToken⟩ := attempt
  have hn : fencingToken = caller.fencingToken := LuaNumber.eq_of_tostring_tonumber htoken
  cases hworker
  cases hat
  cases hn
  rfl

end LeaseDocument

/-- A lease on a node, with the attempt whose script stored it. -/
structure Held where
  holder : Attempt
  pipelineId : String
  runNumber : ℕ

/-- The document that is under the key. -/
def Held.document (held : Held) : LeaseDocument :=
  .encode held.holder held.pipelineId held.runNumber

/-- **What happens to a lease** on a node. A deletion and an extension name the
attempt whose script did it. -/
inductive LeaseEvent where
  | stored (key : String) (holder : Attempt)
  | deleted (key : String) (holder caller : Attempt)
  | extended (key : String) (holder caller : Attempt)
  | expired (key : String) (holder : Attempt)
  deriving DecidableEq

namespace LeaseEvent

/-- The event as a move into or out of the slot of a key. -/
def move (key : String) : LeaseEvent → Option (Tenancy.Move Attempt)
  | .stored k holder => if k = key then some (.enter holder) else none
  | .deleted k holder _ => if k = key then some (.leave holder) else none
  | .expired k holder => if k = key then some (.leave holder) else none
  | .extended _ _ _ => none

/-- **A script deletes and extends the leases of its own attempt only.** -/
def Own : LeaseEvent → Prop
  | .deleted _ holder caller => holder = caller
  | .extended _ holder caller => holder = caller
  | .stored _ _ | .expired _ _ => True

instance : DecidablePred Own := fun e => by
  cases e <;> unfold Own <;> infer_instance

@[simp] theorem move_stored (key : String) (holder : Attempt) :
    (stored key holder).move key = some (.enter holder) := if_pos rfl

/-- A holder leaves the slot of a key by a release of its own or by expiry. -/
theorem eq_of_move_leave {key : String} {a : Attempt} {e : LeaseEvent}
    (h : e.move key = some (.leave a)) (hown : e.Own) :
    e = .deleted key a a ∨ e = .expired key a := by
  cases e with
  | stored k holder => simp [move] at h
  | extended k holder caller => simp [move] at h
  | deleted k holder caller =>
    obtain ⟨hk, hholder⟩ : k = key ∧ holder = a := by simpa [move] using h
    have hcaller : holder = caller := hown
    exact .inl (by rw [hk, ← hcaller, hholder])
  | expired k holder =>
    obtain ⟨hk, hholder⟩ : k = key ∧ holder = a := by simpa [move] using h
    exact .inr (by rw [hk, hholder])

end LeaseEvent

/-! ## A node and its commands -/

/-- **A Redis node**, as far as leases go, with the log of what happened to them. -/
structure Node where
  leases : Dict String Held
  log : List LeaseEvent
  /-- the log accounts for the leases -/
  law : ∀ key, run (Tenancy.step (LeaseEvent.move key)) none log
    = some ((leases.lookup key).map Held.holder)

namespace Node

/-- A node that was started empty. -/
def empty : Node where
  leases := ∅
  log := []
  law := fun _ => rfl

variable (node : Node)

/-- The node after one more event, which must say how its leases have changed. -/
def record (leases : Dict String Held) (e : LeaseEvent)
    (h : ∀ key, Tenancy.step (LeaseEvent.move key) ((node.leases.lookup key).map Held.holder) e
      = some ((leases.lookup key).map Held.holder)) : Node where
  leases := leases
  log := node.log ++ [e]
  law := fun key => (Tenancy.run_concat (node.law key)).trans (h key)

/-- `GET`. -/
def get (key : String) : Option LeaseDocument := (node.leases.lookup key).map Held.document

/-- `SET … NX EX`. -/
def setNx (key : String) (value : Held) : Option Node :=
  if h : node.leases.lookup key = none then
    some (node.record (node.leases.insert key value) (.stored key value.holder) (by
      intro k
      by_cases hk : key = k
      · subst hk
        simp [Tenancy.step, LeaseEvent.move, h]
      · simp [Tenancy.step, LeaseEvent.move, hk, AList.lookup_insert_ne (Ne.symm hk)]))
  else none

/-- A lease leaves its key, which the event says. -/
theorem step_leave {key : String} {held : Held} {e : LeaseEvent}
    (h : node.leases.lookup key = some held)
    (he : ∀ k, e.move k = if key = k then some (.leave held.holder) else none) (k : String) :
    Tenancy.step (LeaseEvent.move k) ((node.leases.lookup k).map Held.holder) e
      = some (((node.leases.erase key).lookup k).map Held.holder) := by
  by_cases hk : key = k
  · subst hk
    simp [Tenancy.step, he, h]
  · simp [Tenancy.step, he, hk, AList.lookup_erase_ne (Ne.symm hk)]

/-- `DEL`, in a script of this caller. -/
def del (key : String) (caller : Attempt) : Node :=
  match h : node.leases.lookup key with
  | none => node
  | some held => node.record (node.leases.erase key) (.deleted key held.holder caller)
      (node.step_leave h (fun _ => rfl))

/-- `EXPIRE`, in a script of this caller. -/
def expire (key : String) (caller : Attempt) : Node :=
  match node.leases.lookup key with
  | none => node
  | some held => node.record node.leases (.extended key held.holder caller) (fun _ => rfl)

/-- The time to live of a lease runs out. -/
def lapse (key : String) : Option Node :=
  match h : node.leases.lookup key with
  | none => none
  | some held => some (node.record (node.leases.erase key) (.expired key held.holder)
      (node.step_leave h (fun _ => rfl)))

end Node

/-! ## The scripts -/

/-- What a script returns: a pair, or a number. -/
inductive ScriptReply where
  | pair (first : ℕ) (second : Option ℕ)
  | integer (n : ℕ)
  deriving DecidableEq

namespace ScriptReply

/-- The acquire script has stored the lease. -/
def isAcquired : ScriptReply → Bool
  | .pair first _ => first = 1
  | .integer _ => false

/-- The renewal script has extended the lease. -/
def isRenewed : ScriptReply → Bool
  | .integer n => n = 1
  | .pair _ _ => false

end ScriptReply

/-- `REDLOCK_ACQUIRE_SCRIPT`. -/
def redlockAcquireScript (key : String) (attempt : Attempt) (pipelineId : String)
    (runNumber : ℕ) (node : Node) : ScriptReply × Node :=
  match node.get key with
  | some _ => (.pair 0 none, node)
  | none =>
    match node.setNx key ⟨attempt, pipelineId, runNumber⟩ with
    | some node => (.pair 1 (some attempt.fencingToken), node)
    | none => (.pair 0 none, node)

/-- The release and the renewal script: a command on the lease of the caller. -/
def onOwnLease (command : Node → Node) (key : String) (caller : Attempt) (node : Node) :
    ScriptReply × Node :=
  match node.get key with
  | none => (.integer 0, node)
  | some data =>
    if data.isOf caller.workerId caller.acquiredAt (toString caller.fencingToken) then
      (.integer 1, command node)
    else (.integer 0, node)

/-- `REDLOCK_RELEASE_SCRIPT`. -/
def redlockReleaseScript (key : String) (caller : Attempt) : Node → ScriptReply × Node :=
  onOwnLease (fun node => node.del key caller) key caller

/-- `REDLOCK_RENEW_SCRIPT`. -/
def redlockRenewScript (key : String) (caller : Attempt) : Node → ScriptReply × Node :=
  onOwnLease (fun node => node.expire key caller) key caller

/-! ## What a script can do to a node -/

namespace Node

/-- **More has happened on a node**, and no script has touched a lease of another
attempt. -/
def Extends (node next : Node) : Prop :=
  ∃ es, next.log = node.log ++ es ∧ ∀ e ∈ es, e.Own

theorem Extends.refl (node : Node) : node.Extends node :=
  ⟨[], (List.append_nil _).symm, nofun⟩

theorem extends_record {node : Node} {leases : Dict String Held} {e : LeaseEvent}
    {h : ∀ key, Tenancy.step (LeaseEvent.move key) ((node.leases.lookup key).map Held.holder) e
      = some ((leases.lookup key).map Held.holder)} (he : e.Own) :
    node.Extends (node.record leases e h) :=
  ⟨[e], rfl, fun _ he' => List.mem_singleton.1 he' ▸ he⟩

theorem Extends.mem {node next : Node} (h : node.Extends next) {e : LeaseEvent}
    (he : e ∈ node.log) : e ∈ next.log := by
  obtain ⟨es, hlog, _⟩ := h
  rw [hlog]
  exact List.mem_append_left _ he

theorem Extends.own {node next : Node} (h : node.Extends next) (hown : ∀ e ∈ node.log, e.Own) :
    ∀ e ∈ next.log, e.Own := by
  obtain ⟨es, hlog, hes⟩ := h
  intro e he
  rw [hlog] at he
  exact (List.mem_append.1 he).elim (hown e) (hes e)

theorem extends_lapse {node next : Node} {key : String} (h : node.lapse key = some next) :
    node.Extends next := by
  unfold lapse at h
  split at h
  next => cases h
  next held hl =>
    cases h
    exact extends_record trivial

theorem extends_setNx {node next : Node} {key : String} {value : Held}
    (h : node.setNx key value = some next) :
    node.Extends next ∧ .stored key value.holder ∈ next.log := by
  unfold setNx at h
  split at h
  next hl =>
    cases h
    exact ⟨extends_record trivial, List.mem_append_right _ (List.mem_singleton.2 rfl)⟩
  next => cases h

/-- **The acquire script** stores a lease where it says so. -/
theorem extends_acquire (key : String) (attempt : Attempt) (pipelineId : String)
    (runNumber : ℕ) (node : Node) :
    node.Extends (redlockAcquireScript key attempt pipelineId runNumber node).2
      ∧ ((redlockAcquireScript key attempt pipelineId runNumber node).1.isAcquired = true →
        .stored key attempt ∈ (redlockAcquireScript key attempt pipelineId runNumber node).2.log)
      := by
  unfold redlockAcquireScript
  split
  next => exact ⟨Extends.refl node, nofun⟩
  next =>
    split
    next next hset =>
      obtain ⟨hext, hmem⟩ := extends_setNx hset
      exact ⟨hext, fun _ => hmem⟩
    next => exact ⟨Extends.refl node, nofun⟩

/-- **The release and the renewal script** see to the caller's own lease. -/
theorem extends_onOwnLease {command : Node → Node} {key : String} {caller : Attempt} {node : Node}
    (h : ∀ held, node.leases.lookup key = some held → held.holder = caller →
      node.Extends (command node)) :
    node.Extends (onOwnLease command key caller node).2 := by
  unfold onOwnLease
  split
  next => exact Extends.refl node
  next data hget =>
    split
    next hof =>
      obtain ⟨held, hlookup, rfl⟩ := Option.map_eq_some_iff.1 hget
      exact h held hlookup (LeaseDocument.eq_of_isOf hof)
    next => exact Extends.refl node

theorem extends_release (key : String) (caller : Attempt) (node : Node) :
    node.Extends (redlockReleaseScript key caller node).2 := by
  refine extends_onOwnLease (fun held hlookup hholder => ?_)
  unfold del
  split
  next => exact Extends.refl node
  next other hother =>
    have heq : other = held := Option.some.inj (hother.symm.trans hlookup)
    exact extends_record (show other.holder = caller by rw [heq, hholder])

theorem extends_renew (key : String) (caller : Attempt) (node : Node) :
    node.Extends (redlockRenewScript key caller node).2 := by
  refine extends_onOwnLease (fun held hlookup hholder => ?_)
  unfold expire
  split
  next => exact Extends.refl node
  next other hother =>
    have heq : other = held := Option.some.inj (hother.symm.trans hlookup)
    exact extends_record (show other.holder = caller by rw [heq, hholder])

/-! ## Two leases under one key -/

/-- **The lease of one attempt gave way to that of another**: it was deleted by a
release of its own attempt, or it expired, before the other was stored. -/
def GaveWay (node : Node) (key : String) (a b : Attempt) : Prop :=
  [.stored key a, .deleted key a a, .stored key b].Sublist node.log
    ∨ [.stored key a, .expired key a, .stored key b].Sublist node.log

instance (node : Node) (key : String) (a b : Attempt) : Decidable (node.GaveWay key a b) :=
  inferInstanceAs (Decidable (_ ∨ _))

theorem gaveWay_of_sublist {node : Node} (hown : ∀ e ∈ node.log, e.Own) {key : String}
    {a b : Attempt}
    (h : [LeaseEvent.stored key a, LeaseEvent.stored key b].Sublist node.log) :
    node.GaveWay key a b := by
  obtain ⟨z, hz, hsub⟩ := Tenancy.sublist_of_enter_enter (LeaseEvent.move_stored key a)
    (LeaseEvent.move_stored key b) (node.law key) h
  have hmem : z ∈ node.log := hsub.subset (List.mem_cons_of_mem _ List.mem_cons_self)
  rcases LeaseEvent.eq_of_move_leave hz (hown z hmem) with rfl | rfl
  · exact .inl hsub
  · exact .inr hsub

/-- **Of two leases that were stored under one key, one gave way to the other.** -/
theorem gaveWay_or_gaveWay {node : Node} (hown : ∀ e ∈ node.log, e.Own) {key : String}
    {a b : Attempt} (hne : a ≠ b) (ha : .stored key a ∈ node.log)
    (hb : .stored key b ∈ node.log) : node.GaveWay key a b ∨ node.GaveWay key b a := by
  have hne' : LeaseEvent.stored key a ≠ LeaseEvent.stored key b := by
    intro h
    injection h with _ h
    exact hne h
  exact (Tenancy.sublist_or_sublist_of_mem hne' ha hb).imp (gaveWay_of_sublist hown)
    (gaveWay_of_sublist hown)

end Node

import AgoraPlugins.Distributed.Coordinator
import AgoraPlugins.Distributed.StoredData

/-!
# Validating a lease

To validate a lease is to ask Redis whether it is still this worker's, with the fencing token that
the caller has. Where the answer is no, the local lease of the pipeline is discarded besides. That
the answer is about the lease which is discarded is not checked. With a single Redis the caller may
have a token from an earlier lease, and then it is the later lease that goes; Redlock asks about
the local lease alone, and answers such a caller at once. While Redis is awaited the pipeline may
be acquired anew, and the answer is about what was there before. And where nodes do not answer,
Redlock counts them as if they denied the lease, while a single Redis that does not answer leaves
the local lease alone.

So a validation is no query, but it becomes one where it denies nothing that is there
(`allSteps_query_iff`). The two stores come to the same where the local lease is the one asked
about, and the stored one is from the same time if it has the same token.
-/

open Machine StoredData

namespace LeaseValidation

structure Config where
  store : Coordinator.Store
  keyPrefix : String
  workerId : String
  fallbackToLocal : Bool
  /-- `validate_lease` of the coordinator without Redis -/
  fallbackValidate : String → ℕ → Bool

/-- **Where a call of `GET` is.** -/
inductive GetCall where
  | sent
  | answered (text : Option String)
  | raised (type message : String)
  deriving DecidableEq

/-- `raise_if_programming_error` raises it. The type is that of the exception or of its bases. -/
def isProgrammingError (type : String) : Bool :=
  type ∈ ["AssertionError", "AttributeError", "KeyError", "TypeError", "ValueError"]

/-- The call ends the validation with its error. -/
def GetCall.isFatal : GetCall → Bool
  | .raised type _ => isProgrammingError type
  | _ => false

/-- What the call has returned. -/
def GetCall.text? : GetCall → Option (Option String)
  | .answered text => some text
  | _ => none

/-! ## What comes of the replies -/

/-- **What a validation comes to**: its answer, and whether the local lease is discarded. -/
structure Outcome where
  answer : Except Exc Bool
  discards : Bool

/-- The local lease is discarded if the answer is no. -/
def Outcome.ofVerdict : Except Exc Bool → Outcome
  | .ok valid => ⟨.ok valid, !valid⟩
  | .error e => ⟨.error e, false⟩

/-- The answer is yes. -/
def confirms : Except Exc Bool → Bool
  | .ok valid => valid
  | .error _ => false

variable {δ : Type} (py : Python δ) (limits : Json.Limits) (cfg : Config)

/-- **`RedisPrimaryLeaseStore.validate`**, once its call is in. -/
def primaryOutcome (fencingToken : ℕ) : GetCall → Option Outcome
  | .sent => none
  | .answered text =>
    some (.ofVerdict (leasePayloadMatches py limits text cfg.workerId fencingToken))
  | .raised type message =>
    if isProgrammingError type then some ⟨.error (.exception type message), false⟩
    else some ⟨.ok false, false⟩

/-- `_run_node_calls`: what the nodes have returned, but for those that failed. -/
def successes : List GetCall → Except Exc (List (Option String))
  | [] => .ok []
  | .answered text :: calls => (successes calls).map (fun texts => text :: texts)
  | .raised type message :: calls =>
    if isProgrammingError type then .error (.exception type message) else successes calls
  | .sent :: calls => successes calls

/-- A node has the lease. -/
def nodeMatches (lease : LeaseState) (text : Option String) : Except Exc Bool :=
  leasePayloadMatchesRedlock py limits text cfg.workerId lease.acquiredAt lease.fencingToken

/-- Whether a quorum of nodes has the lease. -/
def redlockVerdict (quorum : ℕ) (lease : LeaseState) (calls : List GetCall) :
    Except Exc Bool := do
  let texts ← successes calls
  let valid ← texts.mapM (nodeMatches py limits cfg lease)
  pure (decide (quorum ≤ valid.count true))

/-- **`RedisRedlockQuorum.validate`**, once all its calls are in. -/
def redlockOutcome (quorum : ℕ) (lease : LeaseState) (calls : List GetCall) : Option Outcome :=
  if .sent ∈ calls then none
  else some (.ofVerdict (redlockVerdict py limits cfg quorum lease calls))

/-! ## The coordinator -/

/-- **A validation**, awaiting Redis or its nodes, or at its end. -/
inductive Task where
  | reading (pipelineId : String) (fencingToken : ℕ) (call : GetCall)
  | gathering (pipelineId : String) (lease : LeaseState) (calls : List GetCall)
  | ended (answer : Except Exc Bool)

/-- The lease that a validation asks about. -/
def Task.asked : Task → Option (String × ℕ)
  | .reading pipelineId fencingToken _ => some (pipelineId, fencingToken)
  | .gathering pipelineId lease _ => some (pipelineId, lease.fencingToken)
  | .ended _ => none

/-- One of the calls of a validation is in. -/
def Task.answer (node : ℕ) (call : GetCall) : Task → Option Task
  | .reading pipelineId fencingToken .sent =>
    if node = 0 then some (.reading pipelineId fencingToken call) else none
  | .gathering pipelineId lease calls =>
    if calls[node]? = some .sent then some (.gathering pipelineId lease (calls.set node call))
    else none
  | _ => none

structure State where
  /-- `_redis` is set -/
  redis : Bool
  /-- the nodes, or the one Redis -/
  nodes : List (Dict String String)
  leaseTokens : Dict String LeaseState
  leaseNodes : Dict String (Finset ℕ)
  tasks : List Task

/-- What can happen: a step of a validation, or a change that is made elsewhere, by another method
or by another worker. -/
inductive Event where
  | session (connected : Bool)
  | stored (node : ℕ) (key text : String)
  | expired (node : ℕ) (key : String)
  | kept (pipelineId : String) (lease : LeaseState)
  | dropped (pipelineId : String)
  | nodesKept (pipelineId : String) (indices : Finset ℕ)
  | nodesDropped (pipelineId : String)
  | validate (pipelineId : String) (fencingToken : ℕ)
  | answered (task node : ℕ)
  | raised (task node : ℕ) (type message : String)
  | finished (task : ℕ)

namespace State

variable (s : State)

/-- `quorum`. -/
def quorum : ℕ := s.nodes.length / 2 + 1

/-- What is stored for a pipeline at a node. -/
def text (node : ℕ) (pipelineId : String) : Option String :=
  (s.nodes[node]?).bind (fun d => d.lookup (Redlock.State.leaseKey cfg.keyPrefix pipelineId))

def start (u : Task) : State := { s with tasks := s.tasks ++ [u] }

def setTask (i : ℕ) (u : Task) : State := { s with tasks := s.tasks.set i u }

/-- `lease_tokens.pop(pipeline_id, None)`, and with Redlock that of `_lease_nodes`. -/
def discard (pipelineId : String) : State :=
  { s with
    leaseTokens := s.leaseTokens.erase pipelineId
    leaseNodes := match cfg.store with
      | .primary => s.leaseNodes
      | .redlock => s.leaseNodes.erase pipelineId }

/-- **`validate`**, up to its await point. -/
def validate (pipelineId : String) (fencingToken : ℕ) : State :=
  if s.redis = false then
    s.start (.ended (.ok (cfg.fallbackToLocal && cfg.fallbackValidate pipelineId fencingToken)))
  else match cfg.store, s.leaseTokens.lookup pipelineId with
    | .primary, _ => s.start (.reading pipelineId fencingToken .sent)
    | .redlock, none => s.start (.ended (.ok false))
    | .redlock, some lease =>
      if lease.fencingToken ≠ fencingToken then s.start (.ended (.ok false))
      else s.start (.gathering pipelineId lease (List.replicate s.nodes.length .sent))

/-- What a validation comes to. -/
def outcome : Task → Option Outcome
  | .reading _ fencingToken call => primaryOutcome py limits cfg fencingToken call
  | .gathering _ lease calls => redlockOutcome py limits cfg s.quorum lease calls
  | .ended _ => none

/-- A validation ends. -/
def finish (i : ℕ) (pipelineId : String) (o : Outcome) : State :=
  (if o.discards = true then s.discard cfg pipelineId else s).setTask i (.ended o.answer)

end State

/-- **One event.** -/
def step (s : State) : Event → Option State
  | .session connected => some { s with redis := connected }
  | .stored node key text => some { s with nodes := s.nodes.modify node (AList.insert key text) }
  | .expired node key => some { s with nodes := s.nodes.modify node (AList.erase key) }
  | .kept p lease => some { s with leaseTokens := s.leaseTokens.insert p lease }
  | .dropped p => some { s with leaseTokens := s.leaseTokens.erase p }
  | .nodesKept p indices => some { s with leaseNodes := s.leaseNodes.insert p indices }
  | .nodesDropped p => some { s with leaseNodes := s.leaseNodes.erase p }
  | .validate p fencingToken => some (s.validate cfg p fencingToken)
  | .answered i node => do
    let u ← s.tasks[i]?
    let (p, _) ← u.asked
    let u ← u.answer node (.answered (s.text cfg node p))
    pure (s.setTask i u)
  | .raised i node type message => do
    let u ← s.tasks[i]?
    let u ← u.answer node (.raised type message)
    pure (s.setTask i u)
  | .finished i => do
    let u ← s.tasks[i]?
    let (p, _) ← u.asked
    let o ← s.outcome py limits cfg u
    pure (s.finish cfg i p o)

/-! ## The law -/

/-- The lease that is asked about by the validation which takes a step. -/
def State.asked (s : State) : Event → Option (String × ℕ)
  | .validate p fencingToken => some (p, fencingToken)
  | .answered i _ | .raised i _ _ _ | .finished i => (s.tasks[i]?).bind Task.asked
  | _ => none

/-- **A lease is still stored** for this worker with its own token: in Redis, or at a quorum of the
nodes. -/
def State.StillStored (s : State) (p : String) (lease : LeaseState) : Prop :=
  match cfg.store with
  | .primary =>
    leasePayloadMatches py limits (s.text cfg 0 p) cfg.workerId lease.fencingToken = .ok true
  | .redlock => s.quorum ≤ (List.range s.nodes.length).countP (fun node =>
      confirms (nodeMatches py limits cfg lease (s.text cfg node p)))

/-- **A validation is a query**: it changes nothing in Redis and nothing of another pipeline, and
it leaves alone a local lease that has another token or is still stored. -/
structure Query (s : State) (e : Event) (t : State) : Prop where
  nodes : s.asked e ≠ none → t.nodes = s.nodes
  others : ∀ a ∈ s.asked e, ∀ q ≠ a.1, t.leaseTokens.lookup q = s.leaseTokens.lookup q
    ∧ t.leaseNodes.lookup q = s.leaseNodes.lookup q
  own : ∀ a ∈ s.asked e, ∀ lease, s.leaseTokens.lookup a.1 = some lease →
    lease.fencingToken ≠ a.2 ∨ s.StillStored py limits cfg a.1 lease →
    t.leaseTokens.lookup a.1 = some lease

/-- **The replies deny the lease**: what Redis has is read, and it is not the lease; or what the
nodes have is read, if they have answered, and it is the lease at less than a quorum. -/
def State.Denies (s : State) : Task → Prop
  | .reading _ fencingToken call => ∃ text, call = .answered text
      ∧ leasePayloadMatches py limits text cfg.workerId fencingToken = .ok false
  | .gathering _ lease calls => .sent ∉ calls ∧ (∀ call ∈ calls, call.isFatal = false)
      ∧ (∀ text ∈ calls.filterMap GetCall.text?, Readable limits text)
      ∧ (calls.filterMap GetCall.text?).countP (fun text =>
          confirms (nodeMatches py limits cfg lease text)) < s.quorum
  | .ended _ => False

/-- **Nothing is denied that is there**: where the replies deny a lease, there is no local lease
then, or it is the one asked about and is no longer stored. -/
def State.Denied (s : State) : Event → Prop
  | .finished i => ∀ u, s.tasks[i]? = some u → s.Denies py limits cfg u →
      ∀ a ∈ u.asked, ∀ lease, s.leaseTokens.lookup a.1 = some lease →
        lease.fencingToken = a.2 ∧ ¬ s.StillStored py limits cfg a.1 lease
  | _ => True

variable {py} {limits} {cfg} {s t : State}

/-! ## What the replies say -/

theorem successes_eq_ok_iff {calls : List GetCall} {texts : List (Option String)} :
    successes calls = .ok texts
      ↔ (∀ call ∈ calls, call.isFatal = false) ∧ calls.filterMap GetCall.text? = texts := by
  induction calls generalizing texts with
  | nil => simp [successes]
  | cons call calls ih =>
    rw [List.forall_mem_cons]
    cases call with
    | sent => simp [successes, ih, GetCall.isFatal, List.filterMap_cons, GetCall.text?]
    | answered text =>
      simp only [successes, Fallible.map_eq_ok_iff, ih]
      simp [GetCall.isFatal, GetCall.text?]
    | raised type message =>
      cases htype : isProgrammingError type with
      | false => simp [successes, ih, GetCall.isFatal, List.filterMap_cons, GetCall.text?, htype]
      | true => simp [successes, GetCall.isFatal, htype]

/-- A traversal that returns yes or no has as many of each as there are members of the kind. -/
theorem count_of_mapM_eq_ok {α : Type} {f : α → Except Exc Bool} {xs : List α}
    {answers : List Bool} (h : xs.mapM f = .ok answers) :
    answers.count true = xs.countP (fun x => confirms (f x)) := by
  induction Fallible.mapM_eq_ok_iff.1 h with
  | nil => rfl
  | @cons x b xs bs hxy hrest ih =>
    rw [List.count_cons, List.countP_cons, ih (Fallible.mapM_eq_ok_iff.2 hrest), hxy]
    cases b <;> rfl

theorem mapM_nodeMatches_ok_iff (lease : LeaseState) (texts : List (Option String)) :
    (∃ answers, texts.mapM (nodeMatches py limits cfg lease) = .ok answers)
      ↔ ∀ text ∈ texts, Readable limits text := by
  have hone : ∀ text, (∃ b, nodeMatches py limits cfg lease text = .ok b) ↔ Readable limits text :=
    fun text => payloadMatches_ok_iff _ text
  simp only [← hone]
  constructor
  · rintro ⟨answers, h⟩ text htext
    obtain ⟨b, _, hb⟩ := Fallible.mem_of_mapM_eq_ok h text htext
    exact ⟨b, hb⟩
  · exact Fallible.exists_mapM_eq_ok

/-- **Redlock answers** if no call is fatal and all that is read can be, and then by the number of
nodes that have the lease. -/
theorem redlockVerdict_eq_ok_iff {quorum : ℕ} {lease : LeaseState} {calls : List GetCall}
    {valid : Bool} :
    redlockVerdict py limits cfg quorum lease calls = .ok valid
      ↔ (∀ call ∈ calls, call.isFatal = false)
        ∧ (∀ text ∈ calls.filterMap GetCall.text?, Readable limits text)
        ∧ decide (quorum ≤ (calls.filterMap GetCall.text?).countP (fun text =>
            confirms (nodeMatches py limits cfg lease text))) = valid := by
  unfold redlockVerdict
  rw [Fallible.bind_eq_ok_iff]
  constructor
  · rintro ⟨texts, htexts, hrest⟩
    obtain ⟨answers, hanswers, hvalid⟩ := Fallible.bind_eq_ok_iff.1 hrest
    obtain ⟨hfatal, rfl⟩ := successes_eq_ok_iff.1 htexts
    refine ⟨hfatal, (mapM_nodeMatches_ok_iff lease _).1 ⟨answers, hanswers⟩, ?_⟩
    rw [← count_of_mapM_eq_ok hanswers]
    exact Except.ok.inj hvalid
  · rintro ⟨hfatal, hreadable, rfl⟩
    obtain ⟨answers, hanswers⟩ :=
      (@mapM_nodeMatches_ok_iff _ py limits cfg lease _).2 hreadable
    refine ⟨_, successes_eq_ok_iff.2 ⟨hfatal, rfl⟩, Fallible.bind_eq_ok_iff.2 ⟨_, hanswers, ?_⟩⟩
    rw [← count_of_mapM_eq_ok hanswers]
    rfl

theorem discards_ofVerdict {verdict : Except Exc Bool} :
    (Outcome.ofVerdict verdict).discards = true ↔ verdict = .ok false := by
  cases verdict with
  | ok valid => cases valid <;> simp [Outcome.ofVerdict]
  | error e => simp [Outcome.ofVerdict]

/-- **The local lease is discarded** just where the replies deny the lease. -/
theorem discards_iff {u : Task} {o : Outcome} (ho : s.outcome py limits cfg u = some o) :
    o.discards = true ↔ s.Denies py limits cfg u := by
  cases u with
  | reading p fencingToken call =>
    cases call with
    | sent => cases ho
    | answered text =>
      cases ho
      rw [discards_ofVerdict]
      simp [State.Denies]
    | raised type message =>
      have hdiscards : o.discards = false := by
        simp only [State.outcome, primaryOutcome] at ho
        split at ho
        next => cases ho; rfl
        next => cases ho; rfl
      simp [State.Denies, hdiscards]
  | gathering p lease calls =>
    simp only [State.outcome, redlockOutcome] at ho
    split at ho
    next => cases ho
    next hsent =>
      cases ho
      rw [discards_ofVerdict, redlockVerdict_eq_ok_iff]
      simp [State.Denies, hsent]
  | ended answer => cases ho

/-! ## What a validation changes -/

/-- A step that leaves Redis and the local leases alone is a query. -/
theorem Query.of_eq {e : Event} (hnodes : t.nodes = s.nodes)
    (htokens : t.leaseTokens = s.leaseTokens) (hleaseNodes : t.leaseNodes = s.leaseNodes) :
    Query py limits cfg s e t where
  nodes _ := hnodes
  others _ _ _ _ := ⟨by rw [htokens], by rw [hleaseNodes]⟩
  own _ _ _ hlease _ := by rw [htokens, hlease]

/-- What is no step of a validation is none that changes anything. -/
theorem Query.of_asked {e : Event} (h : s.asked e = none) : Query py limits cfg s e t where
  nodes hasked := absurd h hasked
  others a ha := by
    rw [h] at ha
    cases ha
  own a ha := by
    rw [h] at ha
    cases ha

theorem validate_leaves (p : String) (fencingToken : ℕ) :
    (s.validate cfg p fencingToken).nodes = s.nodes
      ∧ (s.validate cfg p fencingToken).leaseTokens = s.leaseTokens
      ∧ (s.validate cfg p fencingToken).leaseNodes = s.leaseNodes := by
  unfold State.validate
  split
  · exact ⟨rfl, rfl, rfl⟩
  · split
    · exact ⟨rfl, rfl, rfl⟩
    · exact ⟨rfl, rfl, rfl⟩
    · split
      · exact ⟨rfl, rfl, rfl⟩
      · exact ⟨rfl, rfl, rfl⟩

/-- **Discarding the local lease** is no query, if the lease is another or is still stored. -/
theorem query_discard_iff {i : ℕ} {u : Task} {p : String} {fencingToken : ℕ}
    {answer : Except Exc Bool} (hu : s.tasks[i]? = some u) (ha : u.asked = some (p, fencingToken)) :
    Query py limits cfg s (.finished i) ((s.discard cfg p).setTask i (.ended answer))
      ↔ ∀ lease, s.leaseTokens.lookup p = some lease →
        lease.fencingToken = fencingToken ∧ ¬ s.StillStored py limits cfg p lease := by
  have hasked : s.asked (.finished i) = some (p, fencingToken) := by
    show (s.tasks[i]?).bind Task.asked = _
    rw [hu]
    exact ha
  have hgone : (s.leaseTokens.erase p).lookup p = none := AList.lookup_erase _ _
  constructor
  · intro h lease hlease
    by_contra hnot
    have hkept := h.own _ hasked lease hlease (by tauto)
    rw [show ((s.discard cfg p).setTask i (.ended answer)).leaseTokens.lookup p = none from hgone]
      at hkept
    cases hkept
  · intro h
    refine ⟨fun _ => rfl, fun a ha q hq => ?_, fun a ha lease hlease hstays => ?_⟩
    · rw [hasked] at ha
      cases ha
      refine ⟨AList.lookup_erase_ne hq, ?_⟩
      show (State.discard cfg s p).leaseNodes.lookup q = _
      unfold State.discard
      cases cfg.store with
      | primary => rfl
      | redlock => exact AList.lookup_erase_ne hq
    · rw [hasked] at ha
      cases ha
      obtain ⟨htoken, hstored⟩ := h lease hlease
      exact absurd hstays (by tauto)

/-- **The end of a validation is a query** just if it denies nothing that is there. -/
theorem query_finish_iff {i : ℕ} {u : Task} {p : String} {fencingToken : ℕ} {o : Outcome}
    (hu : s.tasks[i]? = some u) (ha : u.asked = some (p, fencingToken))
    (ho : s.outcome py limits cfg u = some o) :
    Query py limits cfg s (.finished i) (s.finish cfg i p o)
      ↔ s.Denied py limits cfg (.finished i) := by
  have hdenied : s.Denied py limits cfg (.finished i) ↔ (s.Denies py limits cfg u →
      ∀ lease, s.leaseTokens.lookup p = some lease →
        lease.fencingToken = fencingToken ∧ ¬ s.StillStored py limits cfg p lease) := by
    simp [State.Denied, hu, ha]
  rw [hdenied, ← discards_iff ho]
  unfold State.finish
  cases hdiscards : o.discards with
  | false =>
    refine iff_of_true (Query.of_eq rfl rfl rfl) (fun h => ?_)
    cases h
  | true => simpa using query_discard_iff hu ha

/-- **A step is a query** just if it denies nothing that is there. -/
theorem query_iff {e : Event} (hs : step py limits cfg s e = some t) :
    Query py limits cfg s e t ↔ s.Denied py limits cfg e := by
  cases e with
  | finished i =>
    simp only [step, Option.bind_eq_bind, Option.bind_eq_some_iff] at hs
    obtain ⟨u, hu, ⟨p, fencingToken⟩, ha, o, ho, ht⟩ := hs
    cases ht
    exact query_finish_iff hu ha ho
  | validate p fencingToken =>
    cases hs
    obtain ⟨hnodes, htokens, hleaseNodes⟩ := @validate_leaves cfg s p fencingToken
    exact iff_of_true (Query.of_eq hnodes htokens hleaseNodes) trivial
  | answered i node =>
    simp only [step, Option.bind_eq_bind, Option.bind_eq_some_iff] at hs
    obtain ⟨u, hu, a, ha, u', hu', ht⟩ := hs
    cases ht
    exact iff_of_true (Query.of_eq rfl rfl rfl) trivial
  | raised i node type message =>
    simp only [step, Option.bind_eq_bind, Option.bind_eq_some_iff] at hs
    obtain ⟨u, hu, u', hu', ht⟩ := hs
    cases ht
    exact iff_of_true (Query.of_eq rfl rfl rfl) trivial
  | session connected => exact iff_of_true (Query.of_asked rfl) trivial
  | stored node key text => exact iff_of_true (Query.of_asked rfl) trivial
  | expired node key => exact iff_of_true (Query.of_asked rfl) trivial
  | kept p lease => exact iff_of_true (Query.of_asked rfl) trivial
  | dropped p => exact iff_of_true (Query.of_asked rfl) trivial
  | nodesKept p indices => exact iff_of_true (Query.of_asked rfl) trivial
  | nodesDropped p => exact iff_of_true (Query.of_asked rfl) trivial

/-! ## The two stores -/

/-- What a validation comes to, and the local leases after it. -/
def Outcome.after (o : Outcome) (p : String) (leaseTokens : Dict String LeaseState) :
    Except Exc Bool × Dict String LeaseState :=
  (o.answer, if o.discards = true then leaseTokens.erase p else leaseTokens)

variable (py) (limits) (cfg) in
/-- **A validation of the primary store**, with the reply that Redis has this text. -/
def primaryValidate (leaseTokens : Dict String LeaseState) (p : String) (fencingToken : ℕ)
    (text : Option String) : Except Exc Bool × Dict String LeaseState :=
  (Outcome.ofVerdict (leasePayloadMatches py limits text cfg.workerId fencingToken)).after p
    leaseTokens

variable (py) (limits) (cfg) in
/-- **A validation of Redlock**, with the replies that the nodes have these texts. -/
def redlockValidate (leaseTokens : Dict String LeaseState) (p : String) (fencingToken : ℕ)
    (texts : List (Option String)) : Except Exc Bool × Dict String LeaseState :=
  match leaseTokens.lookup p with
  | none => (.ok false, leaseTokens)
  | some lease =>
    if lease.fencingToken ≠ fencingToken then (.ok false, leaseTokens)
    else (Outcome.ofVerdict (redlockVerdict py limits cfg (texts.length / 2 + 1) lease
      (texts.map .answered))).after p leaseTokens

variable (py) (limits) (cfg) in
/-- **When the two stores agree**: the local lease is the one asked about, and if the stored one has
this token it is from the same time; or there is no local lease, and none of this token is
stored. -/
def Agreeable (leaseTokens : Dict String LeaseState) (p : String) (fencingToken : ℕ)
    (text : Option String) : Prop :=
  match leaseTokens.lookup p with
  | none => leasePayloadMatches py limits text cfg.workerId fencingToken = .ok false
  | some lease => lease.fencingToken = fencingToken
      ∧ (leasePayloadMatches py limits text cfg.workerId fencingToken = .ok true →
        nodeMatches py limits cfg lease text = .ok true)

/-- What all nodes have returned. -/
theorem successes_answered (texts : List (Option String)) :
    successes (texts.map .answered) = .ok texts := by
  induction texts with
  | nil => rfl
  | cons text texts ih =>
    show (successes (texts.map .answered)).map (fun texts => text :: texts) = _
    rw [ih]
    rfl

/-- **Nodes that have the same** come to what one of them does. -/
theorem redlockVerdict_replicate (n : ℕ) (lease : LeaseState) (text : Option String) :
    redlockVerdict py limits cfg ((n + 1) / 2 + 1) lease
        ((List.replicate (n + 1) text).map .answered)
      = nodeMatches py limits cfg lease text := by
  unfold redlockVerdict
  rw [successes_answered]
  show ((List.replicate (n + 1) text).mapM (nodeMatches py limits cfg lease) >>= _) = _
  cases hone : nodeMatches py limits cfg lease text with
  | error e =>
    rw [List.replicate_succ, List.mapM_cons, hone]
    rfl
  | ok valid =>
    have hall : (List.replicate (n + 1) text).mapM (nodeMatches py limits cfg lease)
        = .ok (List.replicate (n + 1) valid) := by
      rw [Fallible.mapM_eq_ok_iff, List.forall₂_iff_get]
      simp [hone]
    rw [hall]
    show Except.ok (decide _) = Except.ok valid
    rw [List.count_replicate]
    cases valid with
    | false => simp
    | true =>
      have hquorum : (n + 1) / 2 + 1 ≤ n + 1 := by omega
      simpa using hquorum

/-- A narrower test comes to the same if it passes what the wider one does. -/
theorem payloadMatches_eq_iff {test narrow : Dlq.Payload → Bool}
    (h : ∀ data, narrow data = true → test data = true) (raw : Option String) :
    payloadMatches limits test raw = payloadMatches limits narrow raw
      ↔ (payloadMatches limits test raw = .ok true →
        payloadMatches limits narrow raw = .ok true) := by
  constructor
  · intro heq htest
    rw [← heq, htest]
  · intro himp
    unfold payloadMatches at himp ⊢
    split
    next => rfl
    next text =>
      dsimp only at himp
      cases hdecoded : decoded limits text with
      | error e => rfl
      | ok v =>
        rw [hdecoded] at himp
        cases v with
        | none => rfl
        | some v =>
          cases v with
          | obj data =>
            have hdata := h data
            simp only [Except.ok.injEq] at himp ⊢
            exact Bool.eq_iff_iff.2 ⟨himp, hdata⟩
          | _ => rfl

theorem isLeaseOf_of_isRedlockLeaseOf {workerId acquiredAt : String} {fencingToken : ℕ}
    {data : Dlq.Payload} (h : isRedlockLeaseOf py workerId acquiredAt fencingToken data = true) :
    isLeaseOf py workerId fencingToken data = true := by
  simp only [isRedlockLeaseOf, isLeaseOf, Bool.and_eq_true] at h ⊢
  exact ⟨h.1.1, h.2⟩

theorem erase_eq_self_iff {leaseTokens : Dict String LeaseState} {p : String} :
    leaseTokens.erase p = leaseTokens ↔ leaseTokens.lookup p = none := by
  constructor
  · intro h
    rw [← h]
    exact AList.lookup_erase _ _
  · intro h
    refine AList.ext ?_
    show List.kerase p leaseTokens.entries = leaseTokens.entries
    exact List.kerase_of_notMem_keys (AList.lookup_eq_none.1 h)

/-- Two verdicts on a lease that is there come to the same just if they are the same. -/
theorem after_ofVerdict_eq_iff {verdict verdict' : Except Exc Bool} {p : String}
    {leaseTokens : Dict String LeaseState} :
    (Outcome.ofVerdict verdict).after p leaseTokens
        = (Outcome.ofVerdict verdict').after p leaseTokens
      ↔ verdict = verdict' := by
  constructor
  · intro h
    have hanswer := congrArg Prod.fst h
    cases verdict <;> cases verdict' <;> exact hanswer
  · intro h
    rw [h]

/-- And an answer of no that discards nothing is that of a verdict only where nothing is there. -/
theorem after_ofVerdict_eq_no_iff {verdict : Except Exc Bool} {p : String}
    {leaseTokens : Dict String LeaseState} :
    (Outcome.ofVerdict verdict).after p leaseTokens = (.ok false, leaseTokens)
      ↔ verdict = .ok false ∧ leaseTokens.lookup p = none := by
  cases verdict with
  | error e => simp [Outcome.ofVerdict, Outcome.after]
  | ok valid =>
    cases valid with
    | true => simp [Outcome.ofVerdict, Outcome.after]
    | false => simp [Outcome.ofVerdict, Outcome.after, erase_eq_self_iff]

/-- **The two stores agree** just if the local lease is the one asked about, and from the time of
the stored one. -/
theorem primaryValidate_eq_iff (n : ℕ) (leaseTokens : Dict String LeaseState) (p : String)
    (fencingToken : ℕ) (text : Option String) :
    primaryValidate py limits cfg leaseTokens p fencingToken text
        = redlockValidate py limits cfg leaseTokens p fencingToken (List.replicate (n + 1) text)
      ↔ Agreeable py limits cfg leaseTokens p fencingToken text := by
  unfold primaryValidate redlockValidate Agreeable
  cases hlease : leaseTokens.lookup p with
  | none =>
    dsimp only
    rw [after_ofVerdict_eq_no_iff, and_iff_left hlease]
  | some lease =>
    dsimp only
    by_cases htoken : lease.fencingToken = fencingToken
    · subst htoken
      rw [if_neg (not_not.2 rfl), List.length_replicate, redlockVerdict_replicate,
        after_ofVerdict_eq_iff, and_iff_right rfl]
      exact payloadMatches_eq_iff (fun data => isLeaseOf_of_isRedlockLeaseOf) text
    · rw [if_pos htoken, after_ofVerdict_eq_no_iff, hlease]
      exact iff_of_false (fun h => by cases h.2) (fun h => htoken h.1)

/-! ## Runs -/

/-- **A validation is a query exactly where it denies nothing that is there**, in every run; and
the two stores agree exactly on a local lease that is asked about and that is of one time with the
stored one. -/
theorem allSteps_query_iff (py : Python δ) (limits : Json.Limits) (cfg : Config) :
    (∀ (s : State) (es : List Event),
      AllSteps (step py limits cfg) (Query py limits cfg) s es
        ↔ AllSteps (step py limits cfg) (fun s e _ => s.Denied py limits cfg e) s es)
      ∧ ∀ (n : ℕ) (leaseTokens : Dict String LeaseState) (p : String) (fencingToken : ℕ)
          (text : Option String),
        primaryValidate py limits cfg leaseTokens p fencingToken text
            = redlockValidate py limits cfg leaseTokens p fencingToken (List.replicate (n + 1) text)
          ↔ Agreeable py limits cfg leaseTokens p fencingToken text := by
  refine ⟨fun s es => ?_, primaryValidate_eq_iff⟩
  have hstep : ∀ s e t, True → step py limits cfg s e = some t →
      (Query py limits cfg s e t ↔ s.Denied py limits cfg e) := fun s e t _ hs => query_iff hs
  exact allSteps_congr (fun _ _ _ _ _ => trivial) hstep trivial es

/-- The text of a lease, as the script stores it. -/
def storedLease (workerId acquiredAt : String) (fencingToken : ℕ) : String :=
  Json.dumps (.obj [("worker_id", .str workerId), ("acquired_at", .str acquiredAt),
    ("fencing_token", .num fencingToken)])

/-- A coordinator with a single Redis. -/
def Config.single : Config := ⟨.primary, "agora:", "w1", false, fun _ _ => false⟩

/-- **A validation with an old token** discards the lease that has been acquired since, which Redis
still has. -/
theorem not_query_oldToken :
    ¬ AllSteps (step Python.ofTexts ⟨some 4300, 900⟩ .single)
      (Query Python.ofTexts ⟨some 4300, 900⟩ .single) ⟨true, [∅], ∅, ∅, []⟩
      [.stored 0 "agora:lease:p" (storedLease "w1" "t" 2), .kept "p" ⟨"p", 1, "w1", 2, "t"⟩,
        .validate "p" 1, .answered 0 0, .finished 0] := by
  intro h
  have hno : leasePayloadMatches Python.ofTexts ⟨some 4300, 900⟩ (some (storedLease "w1" "t" 2))
      "w1" 1 = .ok false := by
    decide +kernel
  have hread : ∃ t : State, run (step Python.ofTexts ⟨some 4300, 900⟩ .single)
        ⟨true, [∅], ∅, ∅, []⟩
        [.stored 0 "agora:lease:p" (storedLease "w1" "t" 2), .kept "p" ⟨"p", 1, "w1", 2, "t"⟩,
          .validate "p" 1, .answered 0 0] = some t
      ∧ t.tasks = [.reading "p" 1 (.answered (some (storedLease "w1" "t" 2)))]
      ∧ t.leaseTokens.lookup "p" = some ⟨"p", 1, "w1", 2, "t"⟩ := ⟨_, rfl, rfl, rfl⟩
  obtain ⟨t, hrun, htasks, hlease⟩ := hread
  have hdrop : step Python.ofTexts ⟨some 4300, 900⟩ .single t (.finished 0)
      = some ((t.discard .single "p").setTask 0 (.ended (.ok false))) := by
    simp [step, htasks, Task.asked, State.outcome, primaryOutcome, Config.single, hno,
      Outcome.ofVerdict, State.finish]
  have hquery := h.last hrun hdrop
  have hasked : t.asked (.finished 0) = some ("p", 1) := by
    simp [State.asked, htasks, Task.asked]
  have hkept := hquery.own _ hasked _ hlease (.inl (by decide))
  have hgone : (t.leaseTokens.erase "p").lookup "p" = none := AList.lookup_erase _ _
  exact absurd (hgone.symm.trans hkept) (by simp)

end LeaseValidation

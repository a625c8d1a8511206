import AgoraPlugins.Kafka.Poison
import AgoraPlugins.Machine

/-!
# Counting poison records

Under a policy with a dead letter queue each poison record is counted once, as one that was put on
the queue or as one whose put failed. But they are counted by the call that puts them there, when it
has ended. If the sink takes batches this is one call of the sink; if it does not, the records are
written one after the other, and if one of these writes raises all records of the call count as
failed, with those that were written before. So the counter of the writes is behind what the sink
has accepted, from the first call in which the sink raises after it has accepted something. And a
call that is cancelled counts nothing at all: only exceptions are caught
(`allStates_poisonAccounts_iff`).

The sink is any here, and what its calls come to is a script. It is `Poison` that follows the
routing to a topic, with the sink that is there.
-/

open Effect Machine

namespace PoisonAccounting

/-- **What a call of the sink comes to.** Where it raises or is cancelled it may have accepted some
of its records, the first ones. -/
inductive SinkReply where
  | returned
  | raised (type message : String) (accepted : ℕ)
  | cancelled (accepted : ℕ)

/-- The settings of poison routing, and how a message becomes a dead letter. -/
structure Config (μ ρ : Type) where
  policy : KafkaPoisonRecordPolicy
  /-- the sink has a `write_batch` -/
  writesBatches : Bool
  buildPoisonDlqRecord : Exc → String → μ → ρ

/-- **The counters** of the delivery and of the poison controller. -/
structure State (ρ : Type) where
  recordErrorCount : ℕ := 0
  batchDeserializeErrorCount : ℕ := 0
  recordDropCount : ℕ := 0
  dlqWriteCount : ℕ := 0
  dlqWriteFailureCount : ℕ := 0
  logOnlyCount : ℕ := 0
  failClosedCount : ℕ := 0
  /-- the replies the sink will give -/
  script : List SinkReply := []
  /-- the records it has accepted -/
  accepted : List ρ := []
  /-- how many records have been routed to it -/
  routed : ℕ := 0

abbrev RoutingM (ρ α : Type) := EStateM Exc (State ρ) α

variable {μ ρ : Type}

/-- `write` or `write_batch` of the sink. -/
def callSink (records : List ρ) : RoutingM ρ PUnit := do
  match (← get).script with
  | [] => modify (fun s => { s with accepted := s.accepted ++ records })
  | .returned :: script => modify (fun s => { s with script, accepted := s.accepted ++ records })
  | .raised type message accepted :: script => do
    modify (fun s => { s with script, accepted := s.accepted ++ records.take accepted })
    throw (.exception type message)
  | .cancelled accepted :: script => do
    modify (fun s => { s with script, accepted := s.accepted ++ records.take accepted })
    throw .cancelled

variable (cfg : Config μ ρ)

/-- The records are put on the queue by one call, or one by one. -/
def putBatch (records : List ρ) : RoutingM ρ PUnit :=
  if cfg.writesBatches then callSink records else records.forM (fun record => callSink [record])

/-- **`handle_poison_dlq_write_error`.** -/
def handlePoisonDlqWriteError (e : Exc) (recordCount : ℕ) : RoutingM ρ PUnit := do
  modify (fun s => { s with dlqWriteFailureCount := s.dlqWriteFailureCount + recordCount })
  if cfg.policy = .dlqAndFailClosed then throw e else pure ⟨⟩

/-- What is put on the queue is counted, when it has been, one way or the other. A cancellation is
no `Exception`, and passes uncounted. -/
def count (put : RoutingM ρ PUnit) (recordCount : ℕ) : RoutingM ρ PUnit := do
  modify (fun s => { s with routed := s.routed + recordCount })
  let written ← tryCatch (do put; pure true) (fun e => do
    if e.isException then handlePoisonDlqWriteError cfg e recordCount else throw e
    pure false)
  if written then modify (fun s => { s with dlqWriteCount := s.dlqWriteCount + recordCount })
  else pure ⟨⟩

/-- **`capture_poison_record`.** -/
def capturePoisonRecord (e : Exc) (message : μ) (stage : String) : RoutingM ρ PUnit :=
  if cfg.policy.capturesRecords then
    count cfg (callSink [cfg.buildPoisonDlqRecord e stage message]) 1
  else pure ⟨⟩

/-- **`capture_poison_batch`.** -/
def capturePoisonBatch (e : Exc) (messages : List μ) (stage : String) : RoutingM ρ PUnit :=
  if cfg.policy.capturesRecords then
    count cfg (putBatch cfg (messages.map (cfg.buildPoisonDlqRecord e stage))) messages.length
  else pure ⟨⟩

/-- The counters of `observe_poison_records`. -/
def observePoisonRecords (n : ℕ) (s : State ρ) : State ρ :=
  match cfg.policy with
  | .logAndContinue => { s with logOnlyCount := s.logOnlyCount + n }
  | .failClosed | .dlqAndFailClosed => { s with failClosedCount := s.failClosedCount + n }
  | .dlqAndContinue => s

/-- The records are dropped and the stream goes on, or it fails. -/
def finish (n : ℕ) : RoutingM ρ PUnit :=
  if cfg.policy.shouldContinue then
    modify (fun s => { s with recordDropCount := s.recordDropCount + n })
  else throw (.exception "SourceRecordError" "")

/-- **`handle_single_deserialize_error`.** -/
def handleSingleDeserializeError (e : Exc) (message : μ) : RoutingM ρ PUnit := do
  modify (fun s => observePoisonRecords cfg 1 { s with recordErrorCount := s.recordErrorCount + 1 })
  capturePoisonRecord cfg e message "kafka_deserialize"
  finish cfg 1

/-- What the two handlers of a batch have in common. -/
def handleBatch (e : Exc) (messages : List μ) (stage : String) : RoutingM ρ PUnit := do
  modify (fun s => observePoisonRecords cfg messages.length
    { s with
      batchDeserializeErrorCount := s.batchDeserializeErrorCount + 1
      recordErrorCount := s.recordErrorCount + messages.length })
  capturePoisonBatch cfg e messages stage
  finish cfg messages.length

/-- **`handle_batch_deserialize_error`.** -/
def handleBatchDeserializeError (e : Exc) (messages : List μ) : RoutingM ρ PUnit :=
  handleBatch cfg e messages "kafka_batch_deserialize"

/-- **`handle_batch_deserializer_count_mismatch`.** -/
def handleBatchDeserializerCountMismatch (messages : List μ) (outputCount : ℕ) :
    RoutingM ρ PUnit :=
  handleBatch cfg
    (.exception "ValueError" ("Kafka batch_deserializer returned a different number of records "
      ++ "than input messages: input=" ++ toString messages.length ++ ", output="
      ++ toString outputCount ++ "."))
    messages "kafka_batch_deserialize_count_mismatch"

/-- What is found to be poison. -/
inductive Poison (μ : Type) where
  | record (e : Exc) (message : μ)
  | batch (e : Exc) (messages : List μ)
  | mismatch (messages : List μ) (outputCount : ℕ)

def handle : Poison μ → RoutingM ρ PUnit
  | .record e message => handleSingleDeserializeError cfg e message
  | .batch e messages => handleBatchDeserializeError cfg e messages
  | .mismatch messages outputCount => handleBatchDeserializerCountMismatch cfg messages outputCount

/-- **One find**, and the replies of the sink that it meets. -/
def step (s : State ρ) (event : Poison μ × List SinkReply) : Option (State ρ) :=
  some (finalState (handle cfg event.1) { s with script := event.2 })

/-! ## The law -/

/-- **The counters are right**: the writes are what the sink has accepted, and with the failures
they are what was routed. -/
structure Accounts (s : State ρ) : Prop where
  writes : s.dlqWriteCount = s.accepted.length
  routed : s.dlqWriteCount + s.dlqWriteFailureCount = s.routed

/-- **How a call of the sink fails**: it raises or is cancelled, with so many records accepted. -/
structure Failure where
  cancelled : Bool
  accepted : ℕ

/-- The same, with one record more. -/
def Failure.after (f : Failure) : Failure := { f with accepted := f.accepted + 1 }

/-- How a call with so many records fails, if it does. -/
def failureOf (n : ℕ) : List SinkReply → Option Failure
  | .raised _ _ accepted :: _ => some ⟨false, min accepted n⟩
  | .cancelled accepted :: _ => some ⟨true, min accepted n⟩
  | _ => none

/-- The same, for so many calls with a record each. -/
def failureOfEach : ℕ → List SinkReply → Option Failure
  | n + 1, .returned :: script => (failureOfEach n script).map Failure.after
  | _ + 1, .raised _ _ accepted :: _ => some ⟨false, min accepted 1⟩
  | _ + 1, .cancelled accepted :: _ => some ⟨true, min accepted 1⟩
  | _, _ => none

/-- The same, for a batch. -/
def failureOfBatch (n : ℕ) (script : List SinkReply) : Option Failure :=
  if cfg.writesBatches then failureOf n script else failureOfEach n script

/-- How many records are found. -/
def Poison.size : Poison μ → ℕ
  | .record _ _ => 1
  | .batch _ messages | .mismatch messages _ => messages.length

/-- **How the sink fails** that is to take what has been found, if it does. -/
def failureBefore (poison : Poison μ) (script : List SinkReply) : Option Failure :=
  match poison with
  | .record _ _ => failureOf 1 script
  | .batch _ _ | .mismatch _ _ => failureOfBatch cfg poison.size script

/-- **A sink that raises has accepted nothing** of what it was to take, and it is cancelled only
with nothing to take. -/
def AllOrNothing (event : Poison μ × List SinkReply) : Prop :=
  ∀ f ∈ failureBefore cfg event.1 event.2,
    f.accepted = 0 ∧ (f.cancelled = true → event.1.size = 0)

/-! ## What a call comes to -/

variable {cfg} {s : State ρ}

/-- **What putting records on the queue comes to**: all are accepted, or so many and it fails. -/
structure Puts (records : List ρ) (before : Option Failure) (s : State ρ) (r : Except Exc PUnit)
    (t : State ρ) : Prop where
  counters : t = { s with script := t.script, accepted := t.accepted }
  returns : r = .ok ⟨⟩ → before = none ∧ t.accepted.length = s.accepted.length + records.length
  raises : ∀ e, r = .error e → ∃ f, before = some f ∧ f.cancelled = !e.isException
    ∧ t.accepted.length = s.accepted.length + f.accepted

theorem ensures_callSink (records : List ρ) (s : State ρ) :
    Ensures (callSink records) s (fun r t =>
      Puts records (failureOf records.length s.script) s r t ∧ t.script = s.script.tail) := by
  unfold callSink
  rw [ensures_bind, ensures_get]
  dsimp only
  split
  next hnil =>
    rw [hnil]
    exact ⟨⟨rfl, fun _ => ⟨rfl, List.length_append⟩, by rintro e ⟨⟩⟩, hnil⟩
  next hreturned =>
    rw [hreturned]
    exact ⟨⟨rfl, fun _ => ⟨rfl, List.length_append⟩, by rintro e ⟨⟩⟩, rfl⟩
  next type message accepted script hraised =>
    rw [hraised, ensures_bind, ensures_modify]
    refine ⟨⟨rfl, by rintro ⟨⟩, ?_⟩, rfl⟩
    rintro e ⟨⟩
    refine ⟨⟨false, min accepted records.length⟩, rfl, rfl, ?_⟩
    show (s.accepted ++ records.take accepted).length = _
    rw [List.length_append, List.length_take]
  next accepted script hcancelled =>
    rw [hcancelled, ensures_bind, ensures_modify]
    refine ⟨⟨rfl, by rintro ⟨⟩, ?_⟩, rfl⟩
    rintro e ⟨⟩
    refine ⟨⟨true, min accepted records.length⟩, rfl, rfl, ?_⟩
    show (s.accepted ++ records.take accepted).length = _
    rw [List.length_append, List.length_take]

theorem failureOfEach_nil (n : ℕ) : failureOfEach n [] = none := by
  cases n <;> rfl

/-- One call after the other. -/
theorem failureOfEach_succ (n : ℕ) (script : List SinkReply) :
    failureOfEach (n + 1) script
      = (failureOf 1 script).or
        ((failureOfEach n script.tail).map Failure.after) := by
  cases script with
  | nil =>
    show none = (failureOfEach n []).map _
    rw [failureOfEach_nil]
    rfl
  | cons reply script => cases reply <;> rfl

/-- One record after the other. -/
theorem ensures_forM_callSink (records : List ρ) (s : State ρ) :
    Ensures (records.forM (fun record => callSink [record])) s
      (Puts records (failureOfEach records.length s.script) s) := by
  induction records generalizing s with
  | nil => exact ⟨rfl, fun _ => ⟨rfl, rfl⟩, by rintro e ⟨⟩⟩
  | cons record records ih =>
    show Ensures (callSink [record] >>= fun _ => records.forM (fun record => callSink [record])) s _
    rw [List.length_cons, failureOfEach_succ]
    refine (ensures_callSink [record] s).bind (fun _ t ht => ?_) (fun e t ht => ?_)
    · obtain ⟨hputs, hscript⟩ := ht
      obtain ⟨hbefore, hlength⟩ := hputs.returns rfl
      rw [show failureOf 1 s.script = none from hbefore, Option.none_or, ← hscript]
      refine (ih t).mono (fun r u hu => ⟨?_, fun hr => ?_, fun e hr => ?_⟩)
      · rw [hu.counters, hputs.counters]
      · obtain ⟨hrest, hmore⟩ := hu.returns hr
        rw [hrest, hmore, hlength]
        exact ⟨rfl, Nat.add_right_comm _ _ _⟩
      · obtain ⟨f, hrest, hcancelled, hmore⟩ := hu.raises e hr
        refine ⟨f.after, by rw [hrest]; rfl, hcancelled, ?_⟩
        rw [hmore, hlength]
        exact Nat.add_right_comm _ _ _
    · obtain ⟨f, hbefore, hcancelled, hlength⟩ := ht.1.raises e rfl
      rw [show failureOf 1 s.script = some f from hbefore]
      exact ⟨ht.1.counters, by rintro ⟨⟩, by rintro e' ⟨⟩; exact ⟨f, rfl, hcancelled, hlength⟩⟩

/-- **What the counting comes to**, of so many records. -/
structure Counts (n : ℕ) (before : Option Failure) (s t : State ρ) : Prop where
  accepted : t.accepted.length = s.accepted.length + (before.map Failure.accepted).getD n
  writes : t.dlqWriteCount = s.dlqWriteCount + if before.isNone then n else 0
  failures : t.dlqWriteFailureCount = s.dlqWriteFailureCount
    + if before.any (fun f => !f.cancelled) then n else 0
  routed : t.routed = s.routed + n

/-- The other counters do not matter for it. -/
theorem Counts.congr {n : ℕ} {before : Option Failure} {s s' t t' : State ρ}
    (h : Counts n before s t)
    (hs : s' = { s with
      recordErrorCount := s'.recordErrorCount
      batchDeserializeErrorCount := s'.batchDeserializeErrorCount
      logOnlyCount := s'.logOnlyCount
      failClosedCount := s'.failClosedCount })
    (ht : t' = { t with recordDropCount := t'.recordDropCount }) : Counts n before s' t' := by
  rw [hs, ht]
  exact ⟨h.accepted, h.writes, h.failures, h.routed⟩

theorem ensures_count {put : RoutingM ρ PUnit} {records : List ρ}
    {before : List SinkReply → Option Failure}
    (hput : ∀ s : State ρ, Ensures put s (Puts records (before s.script) s)) (s : State ρ) :
    Ensures (count cfg put records.length) s
      (fun _ t => Counts records.length (before s.script) s t) := by
  unfold count
  rw [ensures_bind, ensures_modify]
  dsimp only
  rw [ensures_bind, ensures_tryCatch, ensures_bind]
  refine (hput _).mono (fun r t ht => ?_)
  cases r with
  | ok _ =>
    obtain ⟨hbefore, hlength⟩ := ht.returns rfl
    dsimp only at hbefore hlength ⊢
    rw [hbefore]
    show Counts _ none s { t with dlqWriteCount := t.dlqWriteCount + records.length }
    rw [ht.counters]
    exact ⟨hlength, rfl, rfl, rfl⟩
  | error e =>
    obtain ⟨f, hbefore, hcancelled, hlength⟩ := ht.raises e rfl
    dsimp only at hbefore hlength ⊢
    rw [hbefore]
    split
    next hexception =>
      rw [ensures_bind]
      rw [hexception] at hcancelled
      have hcounts : Counts records.length (some f) s
          { t with dlqWriteFailureCount := t.dlqWriteFailureCount + records.length } := by
        rw [ht.counters]
        refine ⟨hlength, rfl, ?_, rfl⟩
        rw [Option.any_some, hcancelled]
        rfl
      unfold handlePoisonDlqWriteError
      rw [ensures_bind, ensures_modify]
      dsimp only
      split
      · exact hcounts
      · exact hcounts
    next hexception =>
      -- nothing is counted
      rw [Bool.not_eq_true] at hexception
      rw [hexception] at hcancelled
      have hcounts : Counts records.length (some f) s t := by
        rw [ht.counters]
        refine ⟨hlength, rfl, ?_, rfl⟩
        rw [Option.any_some, hcancelled]
        rfl
      exact hcounts

theorem ensures_putBatch (records : List ρ) (s : State ρ) :
    Ensures (putBatch cfg records) s
      (Puts records (failureOfBatch cfg records.length s.script) s) := by
  unfold putBatch failureOfBatch
  split
  · exact (ensures_callSink records s).mono (fun _ _ h => h.1)
  · exact ensures_forM_callSink records s

theorem ensures_finish (n : ℕ) (s : State ρ) :
    Ensures (finish cfg n) s
      (fun _ t => t = { s with recordDropCount := t.recordDropCount }) := by
  unfold finish
  split
  · rfl
  · rfl

theorem observePoisonRecords_eq (n : ℕ) (s : State ρ) :
    observePoisonRecords cfg n s = { s with
      logOnlyCount := (observePoisonRecords cfg n s).logOnlyCount
      failClosedCount := (observePoisonRecords cfg n s).failClosedCount } := by
  unfold observePoisonRecords
  cases cfg.policy <;> rfl

/-- A handler counts what it captures, whatever else it counts before and after. -/
theorem ensures_handler {capture : RoutingM ρ PUnit} {observe : State ρ → State ρ} {n m : ℕ}
    {before : Option Failure}
    (hobserve : observe s = { s with
      recordErrorCount := (observe s).recordErrorCount
      batchDeserializeErrorCount := (observe s).batchDeserializeErrorCount
      logOnlyCount := (observe s).logOnlyCount
      failClosedCount := (observe s).failClosedCount })
    (hcapture : Ensures capture (observe s) (fun _ t => Counts n before (observe s) t)) :
    Ensures (do
      modify observe
      capture
      finish cfg m) s (fun _ t => Counts n before s t) := by
  have hback : s = { observe s with
      recordErrorCount := s.recordErrorCount
      batchDeserializeErrorCount := s.batchDeserializeErrorCount
      logOnlyCount := s.logOnlyCount
      failClosedCount := s.failClosedCount } := by
    rw [hobserve]
  rw [ensures_bind, ensures_modify]
  dsimp only
  refine hcapture.bind (fun _ t ht => ?_) (fun _ t ht => ht.congr hback rfl)
  exact (ensures_finish m t).mono (fun _ u hu => ht.congr hback hu)

theorem ensures_handleBatch (hpolicy : cfg.policy.capturesRecords = true) (e : Exc)
    (messages : List μ) (stage : String) (s : State ρ) :
    Ensures (handleBatch cfg e messages stage) s (fun _ t =>
      Counts messages.length (failureOfBatch cfg messages.length s.script) s t) := by
  unfold handleBatch
  refine ensures_handler ?_ ?_
  · rw [observePoisonRecords_eq]
  · unfold capturePoisonBatch
    rw [if_pos hpolicy, observePoisonRecords_eq]
    have hput : ∀ s, Ensures (putBatch cfg (messages.map (cfg.buildPoisonDlqRecord e stage))) s
        (Puts (messages.map (cfg.buildPoisonDlqRecord e stage))
          (failureOfBatch cfg messages.length s.script) s) := by
      intro s
      have hone := @ensures_putBatch μ ρ cfg (messages.map (cfg.buildPoisonDlqRecord e stage)) s
      rwa [List.length_map] at hone
    have hcount := @ensures_count μ ρ cfg _ _ _ hput
    rw [List.length_map] at hcount
    exact hcount _

/-- **Every handler counts** what it finds. -/
theorem ensures_handle (hpolicy : cfg.policy.capturesRecords = true) (poison : Poison μ)
    (s : State ρ) :
    Ensures (handle cfg poison) s
      (fun _ t => Counts poison.size (failureBefore cfg poison s.script) s t) := by
  cases poison with
  | record e message =>
    show Ensures (handleSingleDeserializeError cfg e message) s _
    unfold handleSingleDeserializeError
    refine ensures_handler ?_ ?_
    · rw [observePoisonRecords_eq]
    · unfold capturePoisonRecord
      rw [if_pos hpolicy, observePoisonRecords_eq]
      exact ensures_count (fun s => (ensures_callSink _ s).mono (fun _ _ h => h.1)) _
  | batch e messages => exact ensures_handleBatch hpolicy e messages _ s
  | mismatch messages outputCount => exact ensures_handleBatch hpolicy _ messages _ s

/-- **The counters stay right** just if the sink is all or nothing. -/
theorem Counts.accounts_iff {n : ℕ} {before : Option Failure} {t : State ρ}
    (h : Counts n before s t) (hs : Accounts s) :
    Accounts t ↔ ∀ f ∈ before, f.accepted = 0 ∧ (f.cancelled = true → n = 0) := by
  obtain ⟨haccepted, hwrites, hfailures, hrouted⟩ := h
  obtain ⟨hw, hr⟩ := hs
  rcases before with _ | ⟨cancelled, k⟩
  · refine iff_of_true ⟨?_, ?_⟩ (by rintro f ⟨⟩)
    · simp at *
      omega
    · simp at *
      omega
  · have hiff : (∀ f ∈ some (Failure.mk cancelled k),
        f.accepted = 0 ∧ (f.cancelled = true → n = 0)) ↔ k = 0 ∧ (cancelled = true → n = 0) := by
      simp
    rw [hiff]
    cases cancelled with
    | false =>
      simp at *
      exact ⟨fun ⟨_, _⟩ => by omega, fun _ => ⟨by omega, by omega⟩⟩
    | true =>
      simp at *
      exact ⟨fun ⟨_, _⟩ => ⟨by omega, by omega⟩, fun ⟨_, _⟩ => ⟨by omega, by omega⟩⟩

/-- **The counters are right in a run** just if the sink is all or nothing in each of its steps. -/
theorem allStates_poisonAccounts_iff (cfg : Config μ ρ)
    (hpolicy : cfg.policy.capturesRecords = true) (events : List (Poison μ × List SinkReply)) :
    AllStates (step cfg) Accounts {} events
      ↔ AllSteps (step cfg) (fun _ event _ => AllOrNothing cfg event) {} events := by
  have hstep : ∀ s event t, True → Accounts s → step cfg s event = some t →
      True ∧ (Accounts t ↔ AllOrNothing cfg event) := by
    intro s event t _ hs ht
    cases ht
    have hs' : Accounts { s with script := event.2 } := ⟨hs.writes, hs.routed⟩
    exact ⟨trivial,
      ((ensures_handle hpolicy event.1 { s with script := event.2 }).finalState).accounts_iff hs'⟩
  exact allStates_iff_allSteps hstep trivial ⟨rfl, rfl⟩ events

/-- A sink that takes its records one by one. -/
def oneByOne (policy : KafkaPoisonRecordPolicy) : Config String String where
  policy
  writesBatches := false
  buildPoisonDlqRecord _ _ message := message

/-- The first of two writes fails, under both policies. -/
theorem allStates_poisonAccounts_first :
    AllStates (step (oneByOne .dlqAndContinue)) Accounts {}
        [(.batch (.exception "ValueError" "bad batch") ["a", "b"],
          [.raised "ConnectionError" "" 0])]
      ∧ AllStates (step (oneByOne .dlqAndFailClosed)) Accounts {}
        [(.batch (.exception "ValueError" "bad batch") ["a", "b"],
          [.raised "ConnectionError" "" 0])] := by
  refine ⟨(allStates_poisonAccounts_iff _ rfl _).2 (fun t _ => ⟨?_, trivial⟩),
    (allStates_poisonAccounts_iff _ rfl _).2 (fun t _ => ⟨?_, trivial⟩)⟩
  · rintro f ⟨⟩
    exact ⟨rfl, nofun⟩
  · rintro f ⟨⟩
    exact ⟨rfl, nofun⟩

/-- **The second of two writes fails**, and the first is counted as failed, though the sink has
accepted it. -/
theorem not_accounts_second :
    ¬ AllStates (step (oneByOne .dlqAndContinue)) Accounts {}
      [(.batch (.exception "ValueError" "bad batch") ["a", "b"],
        [.returned, .raised "ConnectionError" "" 0])] := by
  intro h
  have hwrites := (h.2 _ rfl).writes
  cases hwrites

end PoisonAccounting
